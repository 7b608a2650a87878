import Mathlib
import Superi.Lib.Components
import Superi.Lib.Keyed
import Superi.Timeline.Closure

/-!
# Relations — link and group components of a timeline

The links of a timeline are disjoint components of at least two clips in canonical order, and so are
its groups.  Every link that meets a group lies in it: linking extends the groups it meets, and
grouping takes whole links.  No validation checks this last law; each operation restores it.
-/

namespace Superi
namespace Editorial

open Core Result Components Keyed

/-! ## Components of a list -/

/-- The clips of a component. -/
def ClipRelation.clips (relation : ClipRelation) : Set ClipId := {id | id ∈ relation.members}

/-- The components of a list. -/
def family (relations : List ClipRelation) : Set (Set ClipId) :=
  {clips | ∃ relation ∈ relations, clips = relation.clips}

def Separate (left right : ClipRelation) : Prop := ∀ id, id ∈ left.members → id ∉ right.members

/-- Disjoint components of at least two clips, in canonical order. -/
structure WellFormed (relations : List ClipRelation) : Prop where
  size : ∀ relation ∈ relations, 2 ≤ relation.members.size
  disjoint : relations.Pairwise Separate
  ordered : relations.Pairwise fun left right =>
    compare left.members.toList right.members.toList = .lt

variable {relations : List ClipRelation} {members : Std.ExtTreeSet ClipId}

theorem Separate.symm {left right : ClipRelation} (h : Separate left right) : Separate right left :=
  fun id hright hleft => h id hleft hright

theorem isDisjoint_iff {relation : ClipRelation} : relation.isDisjoint members = true ↔
    ∀ id ∈ relation.members, id ∉ members := by
  simp [ClipRelation.isDisjoint]

theorem isDisjoint_iff_not_meets {relation : ClipRelation} : relation.isDisjoint members = true ↔
    ¬ (relation.clips ∩ {id | id ∈ members}).Nonempty := by
  rw [isDisjoint_iff, Set.not_nonempty_iff_eq_empty, Set.eq_empty_iff_forall_notMem]
  exact forall_congr' fun id => not_and.symm

/-- A component of at least two clips is not empty. -/
theorem nonempty_of_size {relation : ClipRelation} (h : 2 ≤ relation.members.size) :
    ∃ id, id ∈ relation.members := by
  cases hlist : relation.members.toList with
  | nil =>
      rw [← Std.ExtTreeSet.length_toList, hlist] at h
      cases h
  | cons id rest => exact ⟨id, Std.ExtTreeSet.mem_toList.1 (hlist ▸ List.mem_cons_self)⟩

/-- The order that `sortRelations` sorts by. -/
def NotAfter (left right : ClipRelation) : Prop :=
  (compare left.members.toList right.members.toList).isLE = true

instance : DecidableRel NotAfter := fun left right =>
  inferInstanceAs (Decidable ((compare left.members.toList right.members.toList).isLE = true))

instance : IsTrans ClipRelation NotAfter where
  trans _ _ _ := Std.TransOrd.isLE_trans

instance : Std.Total NotAfter where
  total left right := by
    unfold NotAfter
    rw [@Std.OrientedCmp.eq_swap _ compare _ right.members.toList left.members.toList]
    cases compare left.members.toList right.members.toList <;> simp

theorem pairwise_sortRelations (relations : List ClipRelation) :
    (sortRelations relations).Pairwise NotAfter :=
  List.pairwise_insertionSort NotAfter relations

/-- Sorting disjoint components gives them in strict order. -/
theorem wellFormed_sortRelations (hsize : ∀ relation ∈ relations, 2 ≤ relation.members.size)
    (hdisjoint : relations.Pairwise Separate) : WellFormed (sortRelations relations) := by
  have hperm : (sortRelations relations).Perm relations := List.perm_insertionSort _ _
  have hseparate : (sortRelations relations).Pairwise Separate :=
    (hperm.pairwise_iff fun h => h.symm).2 hdisjoint
  have hsizes : ∀ relation ∈ sortRelations relations, 2 ≤ relation.members.size :=
    fun relation hrelation => hsize relation (hperm.mem_iff.1 hrelation)
  refine ⟨hsizes, hseparate, ?_⟩
  refine ((pairwise_sortRelations relations).and hseparate).imp_of_mem ?_
  -- components with the same clips would not be disjoint
  rintro left right hleft - ⟨hle, hapart⟩
  obtain ⟨id, hid⟩ := nonempty_of_size (hsizes left hleft)
  have hne : compare left.members.toList right.members.toList ≠ .eq := fun heq => by
    have hlists := Std.LawfulEqOrd.eq_of_compare heq
    rw [← Std.ExtTreeSet.mem_toList, hlists, Std.ExtTreeSet.mem_toList] at hid
    exact hapart id (Std.ExtTreeSet.mem_toList.1 (hlists ▸ Std.ExtTreeSet.mem_toList.2 hid)) hid
  unfold NotAfter at hle
  cases hcompare : compare left.members.toList right.members.toList with
  | lt => rfl
  | eq => exact absurd hcompare hne
  | gt =>
      rw [hcompare] at hle
      cases hle

instance : Std.Symm Separate where
  symm _ _ h := h.symm

theorem family_congr {relations' : List ClipRelation}
    (h : ∀ relation, relation ∈ relations ↔ relation ∈ relations') :
    family relations = family relations' := by
  unfold family
  simp only [h]

theorem family_sortRelations (relations : List ClipRelation) :
    family (sortRelations relations) = family relations :=
  family_congr fun _ => (List.perm_insertionSort _ relations).mem_iff

/-- The components of a well-formed list are apart. -/
theorem WellFormed.apart (h : WellFormed relations) : Apart (family relations) := by
  rintro _ ⟨left, hleft, rfl⟩ _ ⟨right, hright, rfl⟩ ⟨id, hidleft, hidright⟩
  by_contra hne
  have hrelations : left ≠ right := fun heq => hne (heq ▸ rfl)
  exact h.disjoint.forall hleft hright hrelations id hidleft hidright

/-! ## Merging -/

theorem mem_insertMany {list : List ClipId} {id : ClipId} :
    id ∈ members.insertMany list ↔ id ∈ members ∨ id ∈ list := by
  simp [Std.ExtTreeSet.mem_insertMany_list]

/-- Components are absorbed from the left; in disjoint components the order does not matter. -/
theorem foldl_absorb (hdisjoint : relations.Pairwise Separate) (kept : List ClipRelation)
    (members : Std.ExtTreeSet ClipId) :
    let merged := relations.foldl
      (fun (acc : List ClipRelation × Std.ExtTreeSet ClipId) relation =>
        if relation.isDisjoint acc.2 then (acc.1 ++ [relation], acc.2)
        else (acc.1, acc.2.insertMany relation.members.toList)) (kept, members)
    merged.1 = kept ++ relations.filter (fun relation => relation.isDisjoint members) ∧
      ∀ id, id ∈ merged.2 ↔ id ∈ members ∨ ∃ relation ∈ relations,
        relation.isDisjoint members = false ∧ id ∈ relation.members := by
  induction relations generalizing kept members with
  | nil => simp
  | cons relation rest ih =>
      obtain ⟨hfirst, hrest⟩ := List.pairwise_cons.1 hdisjoint
      rw [List.foldl_cons, List.filter_cons]
      cases hmeets : relation.isDisjoint members with
      | true =>
          obtain ⟨hkept, hmerged⟩ := ih hrest (kept ++ [relation]) members
          refine ⟨?_, fun id => ?_⟩
          · rw [if_pos rfl, if_pos rfl, hkept, List.append_assoc]
            rfl
          · rw [if_pos rfl, hmerged]
            simp [hmeets]
      | false =>
          -- the later components are as disjoint from what was absorbed as they were before
          have hsame : ∀ later ∈ rest,
              later.isDisjoint (members.insertMany relation.members.toList) =
                later.isDisjoint members := fun later hlater => by
            rw [Bool.eq_iff_iff, isDisjoint_iff, isDisjoint_iff]
            refine forall₂_congr fun id hid => not_congr ?_
            rw [mem_insertMany, Std.ExtTreeSet.mem_toList]
            exact or_iff_left ((hfirst later hlater).symm id hid)
          obtain ⟨hkept, hmerged⟩ := ih hrest kept (members.insertMany relation.members.toList)
          rw [if_neg Bool.false_ne_true, if_neg Bool.false_ne_true]
          refine ⟨?_, fun id => ?_⟩
          · rw [hkept, List.filter_congr hsame]
          · rw [hmerged, mem_insertMany, Std.ExtTreeSet.mem_toList]
            simp only [List.mem_cons, exists_eq_or_imp, hmeets, true_and, or_assoc]
            refine or_congr_right (or_congr_right (exists_congr fun later => ?_))
            refine and_congr_right fun hlater => ?_
            rw [hsame later hlater]

theorem two_le_size_of_subset {left right : Std.ExtTreeSet ClipId} (hsize : 2 ≤ left.size)
    (hsub : ∀ id ∈ left, id ∈ right) : 2 ≤ right.size := by
  rw [← Std.ExtTreeSet.length_toList] at hsize ⊢
  refine Nat.le_trans hsize ((nodup_toList left).subperm fun id hid => ?_).length_le
  exact Std.ExtTreeSet.mem_toList.2 (hsub id (Std.ExtTreeSet.mem_toList.1 hid))

/-- What merging gives: the components that do not meet the members, and one with all the rest. -/
theorem mergeRelation_spec (h : WellFormed relations) (hsize : 2 ≤ members.size) :
    WellFormed (mergeRelation relations members) ∧
      family (mergeRelation relations members) =
        merge (family relations) {id | id ∈ members} := by
  obtain ⟨hkept, hmerged⟩ := foldl_absorb h.disjoint [] members
  unfold mergeRelation
  generalize relations.foldl _ ([], members) = merged at hkept hmerged ⊢
  obtain ⟨kept, all⟩ := merged
  simp only [List.nil_append] at hkept hmerged ⊢
  subst hkept
  -- the clips of the new component
  have hall : (⟨all⟩ : ClipRelation).clips = absorbed (family relations) {id | id ∈ members} := by
    ext id
    refine (hmerged id).trans (or_congr_right ?_)
    simp only [Set.mem_sUnion, Set.mem_ofPred_eq]
    constructor
    · rintro ⟨relation, hrelation, hmeets, hid⟩
      refine ⟨relation.clips, ⟨⟨relation, hrelation, rfl⟩, ?_⟩, hid⟩
      by_contra hnot
      rw [isDisjoint_iff_not_meets.2 hnot] at hmeets
      cases hmeets
    · rintro ⟨_, ⟨⟨relation, hrelation, rfl⟩, hmeets⟩, hid⟩
      refine ⟨relation, hrelation, ?_, hid⟩
      rw [← Bool.not_eq_true, isDisjoint_iff_not_meets, not_not]
      exact hmeets
  refine ⟨wellFormed_sortRelations ?_ ?_, ?_⟩
  · intro relation hrelation
    rcases List.mem_append.1 hrelation with hrelation | hrelation
    · exact h.size relation (List.mem_of_mem_filter hrelation)
    · rw [List.mem_singleton.1 hrelation]
      exact two_le_size_of_subset hsize fun id hid => (hmerged id).2 (.inl hid)
  · refine List.pairwise_append.2
      ⟨h.disjoint.filter _, List.pairwise_singleton _ _, fun relation hrelation new hnew => ?_⟩
    obtain ⟨hold, hdisjoint⟩ := List.mem_filter.1 hrelation
    rw [List.mem_singleton.1 hnew]
    intro id hid hnew
    exact h.apart.not_meets_absorbed ⟨relation, hold, rfl⟩ (isDisjoint_iff_not_meets.1 hdisjoint)
      ⟨id, hid, hall ▸ hnew⟩
  · rw [family_sortRelations]
    ext clips
    simp only [family, merge, Set.mem_ofPred_eq, Set.mem_insert_iff, List.mem_append,
      List.mem_filter, List.mem_singleton, or_and_right, exists_or, exists_eq_left, hall]
    rw [or_comm]
    refine or_congr_right ?_
    constructor
    · rintro ⟨relation, ⟨hold, hdisjoint⟩, rfl⟩
      exact ⟨⟨relation, hold, rfl⟩, isDisjoint_iff_not_meets.1 hdisjoint⟩
    · rintro ⟨⟨relation, hold, rfl⟩, hnot⟩
      exact ⟨relation, ⟨hold, isDisjoint_iff_not_meets.2 hnot⟩, rfl⟩

/-! ## Restriction and renaming -/

theorem two_le_size_iff {relation : ClipRelation} :
    2 ≤ relation.members.size ↔ relation.clips.Nontrivial := by
  rw [← Std.ExtTreeSet.length_toList]
  constructor
  · intro h
    match hlist : relation.members.toList with
    | first :: second :: rest =>
        have hnodup := nodup_toList relation.members
        have hmem : ∀ id ∈ [first, second], id ∈ relation.members := fun id hid =>
          Std.ExtTreeSet.mem_toList.1 (hlist ▸ List.mem_append_left rest hid)
        rw [hlist] at hnodup
        exact ⟨first, hmem first (by simp), second, hmem second (by simp),
          fun heq => (List.nodup_cons.1 hnodup).1 (heq ▸ List.mem_cons_self)⟩
    | [_] | [] =>
        rw [hlist] at h
        simp at h
  · rintro ⟨first, hfirst, second, hsecond, hne⟩
    have hsub : [first, second] ⊆ relation.members.toList := by
      simp only [List.cons_subset, Std.ExtTreeSet.mem_toList, List.nil_subset, and_true]
      exact ⟨hfirst, hsecond⟩
    exact ((List.nodup_cons.2 ⟨by simpa using hne, List.nodup_singleton _⟩).subperm hsub).length_le

theorem restrictRelations_spec (h : WellFormed relations) (keep : ClipId → Bool) :
    WellFormed (restrictRelations relations keep) ∧
      family (restrictRelations relations keep) =
        restrict (family relations) {id | keep id = true} := by
  have hclips : ∀ relation : ClipRelation,
      (⟨relation.members.filter keep⟩ : ClipRelation).clips =
        relation.clips ∩ {id | keep id = true} := fun relation => by
    ext id
    simp [ClipRelation.clips]
  refine ⟨wellFormed_sortRelations ?_ ?_, ?_⟩
  · exact fun relation hrelation => of_decide_eq_true (List.mem_filter.1 hrelation).2
  · refine List.Pairwise.filter _ (List.pairwise_map.2 (h.disjoint.imp ?_))
    intro left right hseparate id hleft hright
    exact hseparate id (Std.ExtTreeSet.mem_of_mem_filter hleft)
      (Std.ExtTreeSet.mem_of_mem_filter hright)
  · rw [restrictRelations, family_sortRelations]
    ext clips
    simp only [family, restrict, Set.mem_ofPred_eq, List.mem_filter, List.mem_map,
      decide_eq_true_eq]
    constructor
    · rintro ⟨_, ⟨⟨relation, hrelation, rfl⟩, hsize⟩, rfl⟩
      exact ⟨two_le_size_iff.1 hsize, _, ⟨relation, hrelation, rfl⟩, hclips relation⟩
    · rintro ⟨hsize, _, ⟨relation, hrelation, rfl⟩, rfl⟩
      rw [← hclips] at hsize ⊢
      exact ⟨_, ⟨⟨relation, hrelation, rfl⟩, two_le_size_iff.2 hsize⟩, rfl⟩

/-- The renaming of one clip. -/
def renameClip (removed inserted id : ClipId) : ClipId := if id = removed then inserted else id

/-- What replacing a member makes of one component. -/
def replaceMember (removed inserted : ClipId) (relation : ClipRelation) : ClipRelation :=
  if removed ∈ relation.members then ⟨(relation.members.erase removed).insert inserted⟩
  else relation

theorem clips_replaceMember (removed inserted : ClipId) (relation : ClipRelation) :
    (replaceMember removed inserted relation).clips =
      renameClip removed inserted '' relation.clips := by
  ext id
  simp only [replaceMember, ClipRelation.clips, renameClip, Set.mem_image, Set.mem_ofPred_eq]
  split
  · rename_i hremoved
    rw [mem_insert_eq, mem_erase_eq]
    constructor
    · rintro (rfl | ⟨hne, hid⟩)
      · exact ⟨removed, hremoved, if_pos rfl⟩
      · exact ⟨id, hid, if_neg hne⟩
    · rintro ⟨old, hold, rfl⟩
      split
      · exact .inl rfl
      · rename_i hne
        exact .inr ⟨hne, hold⟩
  · rename_i habsent
    constructor
    · exact fun hid => ⟨id, hid, if_neg fun heq : id = removed => habsent (heq ▸ hid)⟩
    · rintro ⟨old, hold, rfl⟩
      rw [if_neg fun heq : old = removed => habsent (heq ▸ hold)]
      exact hold

/-- Renaming to a clip outside is injective inside. -/
theorem renameClip_inj {removed inserted : ClipId} {left right : ClipRelation}
    (hleft : inserted ∉ left.members) (hright : inserted ∉ right.members) {id id' : ClipId}
    (hid : id ∈ left.members) (hid' : id' ∈ right.members)
    (heq : renameClip removed inserted id = renameClip removed inserted id') : id = id' := by
  unfold renameClip at heq
  split at heq <;> split at heq
  · rename_i hfirst hsecond
    rw [hfirst, hsecond]
  · exact absurd (heq ▸ hid') hright
  · exact absurd (heq ▸ hid) hleft
  · exact heq

theorem replaceRelationMember_spec (h : WellFormed relations) {removed inserted : ClipId}
    (hfresh : ∀ relation ∈ relations, inserted ∉ relation.members) :
    WellFormed (replaceRelationMember relations removed inserted) ∧
      family (replaceRelationMember relations removed inserted) =
        Set.image (renameClip removed inserted) '' family relations := by
  have hmem : ∀ {relation id}, id ∈ (replaceMember removed inserted relation).members ↔
      ∃ old ∈ relation.members, renameClip removed inserted old = id := fun {relation id} =>
    (Set.ext_iff.1 (clips_replaceMember removed inserted relation) id)
  refine ⟨wellFormed_sortRelations ?_ ?_, ?_⟩
  · intro relation hrelation
    obtain ⟨old, hold, rfl⟩ := List.mem_map.1 hrelation
    have hnontrivial := two_le_size_iff.1 (h.size old hold)
    refine two_le_size_iff.2 ?_
    rw [show (if removed ∈ old.members then _ else old) = replaceMember removed inserted old from rfl,
      clips_replaceMember]
    exact hnontrivial.image_of_injOn fun id hid id' hid' heq =>
      renameClip_inj (hfresh old hold) (hfresh old hold) hid hid' heq
  · refine List.pairwise_map.2 (h.disjoint.imp_of_mem ?_)
    intro left right hleft hright hseparate id hid hid'
    obtain ⟨old, hold, rfl⟩ := hmem.1 hid
    obtain ⟨old', hold', heq⟩ := hmem.1 hid'
    rw [← renameClip_inj (hfresh right hright) (hfresh left hleft) hold' hold heq] at hold
    exact hseparate old' hold hold'
  · rw [replaceRelationMember, family_sortRelations]
    ext clips
    simp only [family, Set.mem_ofPred_eq, List.mem_map, Set.mem_image]
    constructor
    · rintro ⟨_, ⟨relation, hrelation, rfl⟩, rfl⟩
      exact ⟨_, ⟨relation, hrelation, rfl⟩, (clips_replaceMember removed inserted relation).symm⟩
    · rintro ⟨_, ⟨relation, hrelation, rfl⟩, rfl⟩
      exact ⟨_, ⟨relation, hrelation, rfl⟩, (clips_replaceMember removed inserted relation).symm⟩

/-! ## States -/

/-- Links and groups are well formed, and every link that meets a group lies in it. -/
structure Related (state : TimelineEditState) : Prop where
  links : WellFormed state.links
  groups : WellFormed state.groups
  within : Within (family state.links) (family state.groups)

variable {state state' : TimelineEditState} {clips : List ClipId} {tracks : List Track}

theorem WellFormed.filter (h : WellFormed relations) (p : ClipRelation → Bool) :
    WellFormed (relations.filter p) :=
  ⟨fun relation hrelation => h.size relation (List.mem_of_mem_filter hrelation),
    h.disjoint.filter p, h.ordered.filter p⟩

/-- The component that holds a clip is the one that is found. -/
theorem WellFormed.relationFor_eq (h : WellFormed relations) {relation : ClipRelation} {id : ClipId}
    (hrelation : relation ∈ relations) (hid : id ∈ relation.members) :
    relationFor relations id = some relation := by
  cases hfound : relationFor relations id with
  | none =>
      rw [relationFor, List.find?_eq_none] at hfound
      exact absurd (by simpa using hid) (hfound relation hrelation)
  | some found =>
      obtain ⟨hmem, hin⟩ := TimelineEditState.mem_members_of_relationFor hfound
      by_contra hne
      exact h.disjoint.forall hrelation hmem (fun heq => hne (heq ▸ rfl)) id hid hin

theorem requireRelationshipSize_eq_ok {operation : String} :
    requireRelationshipSize operation members = .ok () ↔ 2 ≤ members.size := by
  rw [requireRelationshipSize, rejectIf_eq_ok, not_lt]

/-- After merging, the first of the merged clips is found in the merged component. -/
theorem clips_of_merged (h : WellFormed relations) (hsize : 2 ≤ members.size) :
    {id | id ∈ ((members.toList.head?.bind
        (relationFor (mergeRelation relations members))).map ClipRelation.members).getD members} =
      absorbed (family relations) {id | id ∈ members} := by
  obtain ⟨hmerged, hfamily⟩ := mergeRelation_spec h hsize
  obtain ⟨relation, hrelation, hclips⟩ : absorbed (family relations) {id | id ∈ members} ∈
      family (mergeRelation relations members) := hfamily ▸ Set.mem_insert _ _
  rw [← Std.ExtTreeSet.length_toList] at hsize
  match hlist : members.toList with
  | [] =>
      rw [hlist] at hsize
      cases hsize
  | anchor :: rest =>
      have hanchor : anchor ∈ members := Std.ExtTreeSet.mem_toList.1 (hlist ▸ List.mem_cons_self)
      have hin : anchor ∈ relation.clips := hclips ▸ subset_absorbed hanchor
      rw [List.head?_cons, Option.bind_some, hmerged.relationFor_eq hrelation hin, hclips]
      rfl

/-- The groups that linking extends. -/
theorem any_meets_iff : (relations.any fun relation => !relation.isDisjoint members) = true ↔
    ∃ group ∈ family relations, (group ∩ {id | id ∈ members}).Nonempty := by
  simp only [List.any_eq_true, Bool.not_eq_true', ← Bool.not_eq_true, isDisjoint_iff_not_meets,
    not_not]
  constructor
  · rintro ⟨relation, hrelation, hmeets⟩
    exact ⟨_, ⟨relation, hrelation, rfl⟩, hmeets⟩
  · rintro ⟨_, ⟨relation, hrelation, rfl⟩, hmeets⟩
    exact ⟨relation, hrelation, hmeets⟩

theorem Related.linkClips (h : Related state) (hlinked : state.linkClips clips tracks = .ok state') :
    Related state' := by
  simp only [TimelineEditState.linkClips, bind_eq_ok, pure_eq_ok] at hlinked
  obtain ⟨members, -, ⟨⟩, hsize, heq⟩ := hlinked
  have hsize := requireRelationshipSize_eq_ok.1 hsize
  obtain ⟨hlinks, hfamily⟩ := mergeRelation_spec h.links hsize
  have hclips := clips_of_merged h.links hsize
  generalize ((members.toList.head?.bind (relationFor (mergeRelation state.links members))).map
    ClipRelation.members).getD members = all at heq hclips
  have hall : 2 ≤ all.size := two_le_size_of_subset hsize fun id hid =>
    (Set.ext_iff.1 hclips id).2 (subset_absorbed hid)
  subst heq
  by_cases hany : (state.groups.any fun group => !group.isDisjoint all) = true
  · obtain ⟨hgroups, hgroupFamily⟩ := mergeRelation_spec h.groups hall
    refine ⟨hlinks, ?_, ?_⟩
    · simp only [if_pos hany]
      exact hgroups
    · simp only [if_pos hany]
      rw [hfamily, hgroupFamily, hclips]
      exact h.within.merge_both h.links.apart
  · refine ⟨hlinks, ?_, ?_⟩
    · simp only [if_neg hany]
      exact h.groups
    · simp only [if_neg hany]
      rw [hfamily]
      -- no group meets the merged link
      refine h.within.merge_fine fun group hgroup hmeets => absurd ?_ hany
      rw [any_meets_iff, hclips]
      exact ⟨group, hgroup, by rwa [Set.inter_comm]⟩

theorem Related.unlinkClips (h : Related state)
    (hunlinked : state.unlinkClips clips tracks = .ok state') : Related state' := by
  simp only [TimelineEditState.unlinkClips, bind_eq_ok, pure_eq_ok] at hunlinked
  obtain ⟨removed, -, heq⟩ := hunlinked
  subst heq
  obtain ⟨hlinks, hfamily⟩ := restrictRelations_spec h.links fun id => decide (id ∉ removed)
  refine ⟨hlinks, h.groups, ?_⟩
  rw [show family (removeRelationMembers state.links removed) = _ from hfamily]
  exact h.within.restrict_fine

/-- Grouping takes the whole link of every requested clip. -/
theorem Related.groupClips (h : Related state)
    (hgrouped : state.groupClips clips tracks = .ok state') : Related state' := by
  simp only [TimelineEditState.groupClips, bind_eq_ok, pure_eq_ok] at hgrouped
  obtain ⟨checked, -, ⟨⟩, hsize, heq⟩ := hgrouped
  have hsize := requireRelationshipSize_eq_ok.1 hsize
  obtain ⟨hgroups, hfamily⟩ := mergeRelation_spec h.groups hsize
  subst heq
  refine ⟨h.links, hgroups, ?_⟩
  rw [show family (mergeRelation state.groups _) = _ from hfamily]
  refine h.within.merge_coarse ?_
  rintro _ ⟨link, hlink, rfl⟩ ⟨id, hid, hmember⟩
  have hfound : ∃ clipId ∈ checked, state.linkFor clipId = some link := by
    rcases mem_insertMany.1 hmember with hchecked | hlinked
    · exact ⟨id, hchecked, h.links.relationFor_eq hlink hid⟩
    · obtain ⟨other, hother, hin⟩ := List.mem_flatMap.1 hlinked
      obtain ⟨clipId, hclip, hlinkFor⟩ := List.mem_filterMap.1 hother
      have hin := Std.ExtTreeSet.mem_toList.1 hin
      -- the clip lies in both links, so they are one
      have hsame : some other = some link :=
        (h.links.relationFor_eq (TimelineEditState.mem_members_of_relationFor hlinkFor).1 hin).symm.trans
          (h.links.relationFor_eq hlink hid)
      exact ⟨clipId, Std.ExtTreeSet.mem_toList.1 hclip, hlinkFor.trans hsame⟩
  obtain ⟨clipId, hclip, hlinkFor⟩ := hfound
  exact fun member hmember => mem_insertMany.2 (.inr (List.mem_flatMap.2
    ⟨link, List.mem_filterMap.2 ⟨clipId, Std.ExtTreeSet.mem_toList.2 hclip, hlinkFor⟩,
      Std.ExtTreeSet.mem_toList.2 hmember⟩))

theorem Related.ungroupClips (h : Related state)
    (hungrouped : state.ungroupClips clips tracks = .ok state') : Related state' := by
  simp only [TimelineEditState.ungroupClips, bind_eq_ok, pure_eq_ok] at hungrouped
  obtain ⟨removed, -, heq⟩ := hungrouped
  subst heq
  refine ⟨h.links, h.groups.filter _, h.within.mono_coarse ?_⟩
  rintro _ ⟨group, hgroup, rfl⟩
  exact ⟨group, List.mem_of_mem_filter hgroup, rfl⟩

theorem Related.reconcile (h : Related state) (tracks : List Track) :
    Related (state.reconcile tracks) := by
  obtain ⟨hlinks, hlinkFamily⟩ := restrictRelations_spec h.links fun id => decide (id ∈ clipIdsOf tracks)
  obtain ⟨hgroups, hgroupFamily⟩ :=
    restrictRelations_spec h.groups fun id => decide (id ∈ clipIdsOf tracks)
  refine ⟨hlinks, hgroups, ?_⟩
  rw [show family (state.reconcile tracks).links = _ from hlinkFamily,
    show family (state.reconcile tracks).groups = _ from hgroupFamily]
  exact h.within.restrict_both

/-- What `transferClipIntent` leaves before it is validated. -/
def TimelineEditState.transferred (state : TimelineEditState) (removed inserted : ClipId) :
    TimelineEditState :=
  { state with
    selectedObjects :=
      if .clip removed ∈ state.selectedObjects then
        (state.selectedObjects.erase (.clip removed)).insert (.clip inserted)
      else state.selectedObjects
    links := replaceRelationMember state.links removed inserted
    groups := replaceRelationMember state.groups removed inserted }

theorem Related.transferred (h : Related state) {removed inserted : ClipId}
    (hfresh : inserted ∉ state.relatedClips) : Related (state.transferred removed inserted) := by
  have hnot : ∀ relation ∈ state.groups ++ state.links, inserted ∉ relation.members :=
    fun relation hrelation hid => hfresh (List.mem_toFinset.2
      (List.mem_flatMap.2 ⟨relation, hrelation, Std.ExtTreeSet.mem_toList.2 hid⟩))
  have hlink := fun relation hrelation => hnot relation (List.mem_append_right _ hrelation)
  have hgroup := fun relation hrelation => hnot relation (List.mem_append_left _ hrelation)
  obtain ⟨hlinks, hlinkFamily⟩ := @replaceRelationMember_spec _ h.links removed inserted hlink
  obtain ⟨hgroups, hgroupFamily⟩ := @replaceRelationMember_spec _ h.groups removed inserted hgroup
  refine ⟨hlinks, hgroups, ?_⟩
  rw [show family (state.transferred removed inserted).links = _ from hlinkFamily,
    show family (state.transferred removed inserted).groups = _ from hgroupFamily]
  refine h.within.rename ?_
  rintro _ ⟨link, hlinkMem, rfl⟩ _ ⟨group, hgroupMem, rfl⟩ id hid id' hid' heq
  exact renameClip_inj (hlink link hlinkMem) (hgroup group hgroupMem) hid hid' heq

theorem Related.of_eq (h : Related state) (hlinks : state'.links = state.links)
    (hgroups : state'.groups = state.groups) : Related state' :=
  ⟨hlinks ▸ h.links, hgroups ▸ h.groups, hlinks ▸ hgroups ▸ h.within⟩

section Fragments

variable {timeline timeline' : Timeline} {created : ClipId}

theorem Related.inheritSelection {selected : Bool} (h : Related timeline.editState)
    (hinherited : inheritSelection timeline selected created = .ok timeline') :
    Related timeline'.editState := by
  unfold Editorial.inheritSelection at hinherited
  split at hinherited
  · simp only [Timeline.updateSelection, TimelineEditState.updateSelection, bind_eq_ok,
      pure_eq_ok] at hinherited
    obtain ⟨_, ⟨⟨⟩, -, rfl⟩, rfl⟩ := hinherited
    exact h.of_eq rfl rfl
  · cases hinherited
    exact h

theorem Related.inheritLink {linked : Option ClipRelation} (h : Related timeline.editState)
    (hinherited : inheritLink timeline linked created = .ok timeline') :
    Related timeline'.editState := by
  cases linked with
  | none =>
      cases hinherited
      exact h
  | some relation =>
      simp only [Editorial.inheritLink, Timeline.linkClips, bind_eq_ok, pure_eq_ok] at hinherited
      obtain ⟨editState, hlinked, rfl⟩ := hinherited
      exact h.linkClips hlinked

theorem Related.inheritGroup {grouped : Option ClipRelation} (h : Related timeline.editState)
    (hinherited : inheritGroup timeline grouped created = .ok timeline') :
    Related timeline'.editState := by
  cases grouped with
  | none =>
      cases hinherited
      exact h
  | some relation =>
      simp only [Editorial.inheritGroup, Timeline.groupClips, bind_eq_ok, pure_eq_ok] at hinherited
      obtain ⟨editState, hgrouped, rfl⟩ := hinherited
      exact h.groupClips hgrouped

/-- A fragment joins the selection, the link and the group of its original. -/
theorem Related.inheritFragment {fragment : EditFragment} (h : Related timeline.editState)
    (hinherited : inheritFragment timeline fragment = .ok timeline') :
    Related timeline'.editState := by
  unfold Editorial.inheritFragment at hinherited
  split at hinherited
  · split at hinherited
    · simp only [Timeline.setMetadata, bind_eq_ok, pure_eq_ok] at hinherited
      obtain ⟨annotations, -, rfl⟩ := hinherited
      exact h
    · cases hinherited
      exact h
  · simp only [bind_eq_ok, pure_eq_ok] at hinherited
    obtain ⟨first, hselected, second, hlinked, third, hgrouped, rfl⟩ := hinherited
    have hthird := ((h.inheritSelection hselected).inheritLink hlinked).inheritGroup hgrouped
    exact hthird
  · cases hinherited
    exact h

end Fragments

theorem related_fromTracks (tracks : List Track) : Related (.fromTracks tracks) :=
  ⟨⟨nofun, .nil, .nil⟩, ⟨nofun, .nil, .nil⟩, fun _ ⟨_, hnone, _⟩ => absurd hnone List.not_mem_nil⟩

/-! ## Runs -/

/-- One step of a timeline's edit state.  A transfer may also leave its state behind when its
validation fails; the identity it inserts is not related yet. -/
inductive RelationStep : TimelineEditState → TimelineEditState → Prop
  | link {state state' : TimelineEditState} (clips : List ClipId) (tracks : List Track)
      (h : state.linkClips clips tracks = .ok state') : RelationStep state state'
  | unlink {state state' : TimelineEditState} (clips : List ClipId) (tracks : List Track)
      (h : state.unlinkClips clips tracks = .ok state') : RelationStep state state'
  | group {state state' : TimelineEditState} (clips : List ClipId) (tracks : List Track)
      (h : state.groupClips clips tracks = .ok state') : RelationStep state state'
  | ungroup {state state' : TimelineEditState} (clips : List ClipId) (tracks : List Track)
      (h : state.ungroupClips clips tracks = .ok state') : RelationStep state state'
  | transfer {state : TimelineEditState} (removed inserted : ClipId)
      (h : inserted ∉ state.relatedClips) : RelationStep state (state.transferred removed inserted)
  | reconcile {state : TimelineEditState} (tracks : List Track) :
      RelationStep state (state.reconcile tracks)
  | inherit {timeline timeline' : Timeline} (fragment : EditFragment)
      (h : inheritFragment timeline fragment = .ok timeline') :
      RelationStep timeline.editState timeline'.editState
  -- selection and lane intent
  | other {state state' : TimelineEditState} (hlinks : state'.links = state.links)
      (hgroups : state'.groups = state.groups) : RelationStep state state'

theorem RelationStep.related (hstep : RelationStep state state') (h : Related state) :
    Related state' := by
  cases hstep with
  | link clips tracks hlinked => exact h.linkClips hlinked
  | unlink clips tracks hunlinked => exact h.unlinkClips hunlinked
  | group clips tracks hgrouped => exact h.groupClips hgrouped
  | ungroup clips tracks hungrouped => exact h.ungroupClips hungrouped
  | transfer removed inserted hfresh => exact h.transferred hfresh
  | reconcile tracks => exact h.reconcile tracks
  | inherit fragment hinherited => exact h.inheritFragment hinherited
  | other hlinks hgroups => exact h.of_eq hlinks hgroups

/-- In every state a timeline reaches, links and groups are disjoint components of at least two
clips in canonical order, and a link that meets a group lies in it. -/
theorem relations_well_formed (tracks : List Track)
    (hreached : Relation.ReflTransGen RelationStep (.fromTracks tracks) state) :
    WellFormed state.links ∧ WellFormed state.groups ∧
      ∀ link ∈ state.links, ∀ group ∈ state.groups,
        (∃ id, id ∈ link.members ∧ id ∈ group.members) → ∀ id ∈ link.members, id ∈ group.members := by
  have hrelated : Related state := by
    induction hreached with
    | refl => exact related_fromTracks tracks
    | tail _ hstep ih => exact hstep.related ih
  refine ⟨hrelated.links, hrelated.groups, fun link hlink group hgroup => ?_⟩
  rintro ⟨id, hidlink, hidgroup⟩
  exact hrelated.within link.clips ⟨link, hlink, rfl⟩ group.clips ⟨group, hgroup, rfl⟩
    ⟨id, hidlink, hidgroup⟩

/-- A clip of ten frames of one medium. -/
def pairClip (id : ClipId) : Option Clip :=
  (Clip.new id "take" (.media ⟨1⟩) (filmRange 0 10 ten_fit) (filmRange 0 10 ten_fit)).toOption

/-- A picture and its sound. -/
def pairTracks : List Track :=
  [⟨1⟩, ⟨2⟩].map fun id => {
    id := ⟨id⟩
    name := "T"
    semantics := .video filmClock .over
    items := (pairClip ⟨id⟩).toList.map fun clip => .timed (.clip clip) }

theorem relations_well_formed_pair :
    ∃ state, (TimelineEditState.fromTracks pairTracks).linkClips [⟨1⟩, ⟨2⟩] pairTracks = .ok state ∧
      state.links.length = 1 ∧ WellFormed state.links := by
  obtain ⟨state, hlink⟩ := exists_ok_of_isSome (x := (TimelineEditState.fromTracks
    pairTracks).linkClips [⟨1⟩, ⟨2⟩] pairTracks) (by decide +kernel)
  have hlength : ((TimelineEditState.fromTracks pairTracks).linkClips [⟨1⟩, ⟨2⟩]
      pairTracks).toOption.map (fun state => state.links.length) = some 1 := by
    decide +kernel
  rw [hlink] at hlength
  have hlength := Option.some.inj hlength
  exact ⟨state, hlink, hlength, (relations_well_formed pairTracks
    (Relation.ReflTransGen.single (.link [⟨1⟩, ⟨2⟩] pairTracks hlink))).1⟩

end Editorial
end Superi

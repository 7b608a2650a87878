import Mathlib
import Std.Data.ExtTreeMap
import Std.Data.ExtTreeSet

/-!
# Keyed — the values of an ordered map, by key

Code that walks over the values of an ordered map sees a list; what is proved about it is said per
key.  The lemmas of this module translate between the two.
-/

namespace Superi
namespace Keyed

variable {α β γ : Type*} [Ord α] [Std.TransOrd α] [Std.LawfulEqOrd α]

/-! ## Orders given by keys -/

omit [Std.TransOrd α] in
/-- An order by one key is lawful if the key tells elements apart. -/
theorem lawfulEqCmp_compareOn {δ : Type*} {f : δ → α} (hf : Function.Injective f) :
    Std.LawfulEqCmp (compareOn f) where
  compare_self := Std.ReflOrd.compare_self
  eq_of_compare := fun {a b} h => hf (Std.LawfulEqOrd.eq_of_compare (a := f a) (b := f b) h)

omit [Std.TransOrd α] in
/-- An order by two keys is lawful if the keys together tell elements apart. -/
theorem lawfulEqCmp_compareLex {δ κ : Type*} [Ord κ] [Std.LawfulEqOrd κ] {f : δ → α} {g : δ → κ}
    (hfg : ∀ a b, f a = f b → g a = g b → a = b) :
    Std.LawfulEqCmp (compareLex (compareOn f) (compareOn g)) where
  compare_self := compareLex_eq_eq.2 ⟨Std.ReflOrd.compare_self, Std.ReflOrd.compare_self⟩
  eq_of_compare := fun {a b} h =>
    hfg a b (Std.LawfulEqOrd.eq_of_compare (a := f a) (b := f b) (compareLex_eq_eq.1 h).1)
      (Std.LawfulEqOrd.eq_of_compare (a := g a) (b := g b) (compareLex_eq_eq.1 h).2)

/-! ## Lookups by equality of keys -/

section Lookup

variable [DecidableEq α]

theorem getElem?_insert_eq {map : Std.ExtTreeMap α β} {key key' : α} {value : β} :
    (map.insert key value)[key']? = if key' = key then some value else map[key']? := by
  rw [Std.ExtTreeMap.getElem?_insert]
  simp only [Std.compare_eq_iff_eq, eq_comm (a := key)]

theorem getElem?_erase_eq {map : Std.ExtTreeMap α β} {key key' : α} :
    (map.erase key)[key']? = if key' = key then none else map[key']? := by
  rw [Std.ExtTreeMap.getElem?_erase]
  simp only [Std.compare_eq_iff_eq, eq_comm (a := key)]

theorem getElem?_modify_eq {map : Std.ExtTreeMap α β} {key key' : α} {f : β → β} :
    (map.modify key f)[key']? = if key' = key then map[key']?.map f else map[key']? := by
  rw [Std.ExtTreeMap.getElem?_modify]
  simp only [Std.compare_eq_iff_eq, eq_comm (a := key)]
  split
  · rename_i heq
    rw [heq]
  · rfl

omit [DecidableEq α] in
theorem mem_insert_eq {set : Std.ExtTreeSet α} {key key' : α} :
    key' ∈ set.insert key ↔ key' = key ∨ key' ∈ set := by
  rw [Std.ExtTreeSet.mem_insert]
  simp only [Std.compare_eq_iff_eq, eq_comm (a := key)]

omit [DecidableEq α] in
theorem mem_erase_eq {set : Std.ExtTreeSet α} {key key' : α} :
    key' ∈ set.erase key ↔ key' ≠ key ∧ key' ∈ set := by
  rw [Std.ExtTreeSet.mem_erase]
  simp only [ne_eq, Std.compare_eq_iff_eq, eq_comm (a := key)]

omit [DecidableEq α] in
theorem nodup_toList (set : Std.ExtTreeSet α) : set.toList.Nodup :=
  Std.ExtTreeSet.distinct_toList.imp fun hne heq => hne (Std.compare_eq_iff_eq.2 heq)

omit [DecidableEq α] in
theorem nodup_keys (map : Std.ExtTreeMap α β) : map.keys.Nodup :=
  Std.ExtTreeMap.distinct_keys.imp fun hne heq => hne (Std.compare_eq_iff_eq.2 heq)

omit [DecidableEq α] [Std.LawfulEqOrd α] in
theorem mem_of_getElem?_eq_some {map : Std.ExtTreeMap α β} {key : α} {value : β}
    (h : map[key]? = some value) : key ∈ map :=
  Std.ExtTreeMap.isSome_getElem?_iff_mem.1 (by rw [h]; rfl)

end Lookup

/-! ## Members of a set -/

theorem toList_insert_perm {set : Std.ExtTreeSet α} {key : α} (h : key ∉ set) :
    (set.insert key).toList.Perm (key :: set.toList) := by
  refine (List.perm_ext_iff_of_nodup (nodup_toList _) ?_).2 fun other => ?_
  · exact List.nodup_cons.2 ⟨fun hmem => h (Std.ExtTreeSet.mem_toList.1 hmem), nodup_toList _⟩
  · rw [Std.ExtTreeSet.mem_toList, mem_insert_eq, List.mem_cons, Std.ExtTreeSet.mem_toList]

theorem toList_erase_perm {set : Std.ExtTreeSet α} {key : α} (h : key ∈ set) :
    set.toList.Perm (key :: (set.erase key).toList) := by
  have hfresh : key ∉ (set.erase key).toList := fun hmem =>
    (mem_erase_eq.1 (Std.ExtTreeSet.mem_toList.1 hmem)).1 rfl
  refine (List.perm_ext_iff_of_nodup (nodup_toList _) ?_).2 fun other => ?_
  · exact List.nodup_cons.2 ⟨hfresh, nodup_toList _⟩
  · rw [List.mem_cons, Std.ExtTreeSet.mem_toList, Std.ExtTreeSet.mem_toList, mem_erase_eq]
    refine ⟨fun hmem => ?_, ?_⟩
    · exact or_iff_not_imp_left.2 fun hne => ⟨hne, hmem⟩
    · rintro (rfl | hother)
      · exact h
      · exact hother.2

/-! ## Values -/

/-- The values of a map, in key order. -/
def valuesOf (map : Std.ExtTreeMap α β) : List β :=
  map.toList.map Prod.snd

theorem mem_valuesOf {map : Std.ExtTreeMap α β} {value : β} :
    value ∈ valuesOf map ↔ ∃ key : α, map[key]? = some value := by
  simp only [valuesOf, List.mem_map, Prod.exists,
    Std.ExtTreeMap.mem_toList_iff_getElem?_eq_some, exists_eq_right]

/-- The entry of a key comes apart from the others. -/
theorem toList_perm_of_getElem? [DecidableEq α] {map : Std.ExtTreeMap α β} {key : α} {value : β}
    (h : map[key]? = some value) : map.toList.Perm ((key, value) :: (map.erase key).toList) := by
  have hnodup (map : Std.ExtTreeMap α β) : map.toList.Nodup :=
    Std.ExtTreeMap.distinct_keys_toList.imp fun hne heq =>
      hne (Std.compare_eq_iff_eq.2 (congrArg Prod.fst heq))
  have herased (other : α) (found : β) :
      (other, found) ∈ (map.erase key).toList ↔ other ≠ key ∧ map[other]? = some found := by
    rw [Std.ExtTreeMap.mem_toList_iff_getElem?_eq_some, getElem?_erase_eq]
    split
    · rename_i heq
      exact ⟨fun hnone => (nomatch hnone), fun hne => absurd heq hne.1⟩
    · rename_i hne
      exact ⟨fun hfound => ⟨hne, hfound⟩, And.right⟩
  have hfresh : (key, value) ∉ (map.erase key).toList := fun hmem => ((herased _ _).1 hmem).1 rfl
  refine (List.perm_ext_iff_of_nodup (hnodup map) (List.nodup_cons.2 ⟨hfresh, hnodup _⟩)).2 ?_
  rintro ⟨other, found⟩
  rw [List.mem_cons, herased, Std.ExtTreeMap.mem_toList_iff_getElem?_eq_some]
  by_cases heq : other = key
  · subst heq
    simp [h, eq_comm]
  · simp [heq]

theorem valuesOf_perm_of_getElem? [DecidableEq α] {map : Std.ExtTreeMap α β} {key : α} {value : β}
    (h : map[key]? = some value) : (valuesOf map).Perm (value :: valuesOf (map.erase key)) :=
  (toList_perm_of_getElem? h).map Prod.snd

theorem erase_of_getElem?_eq_none [DecidableEq α] {map : Std.ExtTreeMap α β} {key : α}
    (h : map[key]? = none) : map.erase key = map := by
  refine Std.ExtTreeMap.ext_getElem? fun other => ?_
  rw [getElem?_erase_eq]
  split
  · rename_i heq
    rw [heq, h]
  · rfl

/-- What a key held comes apart from the values of the other keys. -/
theorem valuesOf_perm_erase [DecidableEq α] (map : Std.ExtTreeMap α β) (key : α) :
    (valuesOf map).Perm (map[key]?.toList ++ valuesOf (map.erase key)) := by
  cases h : map[key]? with
  | none => rw [erase_of_getElem?_eq_none h]; rfl
  | some value => exact valuesOf_perm_of_getElem? h

theorem valuesOf_insert_perm [DecidableEq α] (map : Std.ExtTreeMap α β) (key : α) (value : β) :
    (valuesOf (map.insert key value)).Perm (value :: valuesOf (map.erase key)) := by
  have hinserted : (map.insert key value)[key]? = some value := by
    rw [getElem?_insert_eq, if_pos rfl]
  have hperm := valuesOf_perm_of_getElem? hinserted
  have herase : (map.insert key value).erase key = map.erase key := by
    refine Std.ExtTreeMap.ext_getElem? fun other => ?_
    simp only [getElem?_erase_eq, getElem?_insert_eq]
    split <;> rfl
  rwa [herase] at hperm

/-- A symmetric relation holds pairwise in key order exactly if it holds between the values of any
two keys. -/
theorem pairwise_valuesOf {map : Std.ExtTreeMap α β} {R : β → β → Prop} [hsymm : Std.Symm R] :
    (valuesOf map).Pairwise R ↔ ∀ (key key' : α) (value value' : β), key ≠ key' →
      map[key]? = some value → map[key']? = some value' → R value value' := by
  rw [valuesOf, List.pairwise_map]
  constructor
  · intro hpair key key' value value' hne hkey hkey'
    rw [← Std.ExtTreeMap.mem_toList_iff_getElem?_eq_some] at hkey hkey'
    have : Std.Symm fun a b : α × β => R a.2 b.2 := ⟨fun _ _ h => hsymm.symm _ _ h⟩
    exact hpair.forall hkey hkey' fun heq => hne (congrArg Prod.fst heq)
  · intro h
    refine (Std.ExtTreeMap.distinct_keys_toList (t := map)).imp_of_mem fun {a b} ha hb hne => ?_
    rw [Std.ExtTreeMap.mem_toList_iff_getElem?_eq_some] at ha hb
    exact h a.1 b.1 a.2 b.2 (fun heq => hne (by rw [heq]; exact Std.ReflCmp.compare_self)) ha hb

/-- The lists drawn from the values are duplicate-free as a whole if each one is and the lists of
different keys have nothing in common. -/
theorem nodup_flatMap_valuesOf {map : Std.ExtTreeMap α β} {f : β → List γ} :
    ((valuesOf map).flatMap f).Nodup ↔
      (∀ (key : α) (value : β), map[key]? = some value → (f value).Nodup) ∧
        ∀ (key key' : α) (value value' : β), key ≠ key' → map[key]? = some value →
          map[key']? = some value' → List.Disjoint (f value) (f value') := by
  have : Std.Symm (Function.onFun List.Disjoint f) := ⟨fun _ _ h _ hx hy => h hy hx⟩
  rw [List.nodup_flatMap, pairwise_valuesOf]
  refine and_congr_left fun _ => ?_
  simp only [mem_valuesOf]
  exact ⟨fun h key value hvalue => h value ⟨key, hvalue⟩,
    fun h value ⟨key, hvalue⟩ => h key value hvalue⟩

end Keyed
end Superi

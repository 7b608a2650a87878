import Superi.Lib.Keyed

/-!
# Lru — ordered-key storage with access recency

Access stamps live beside the values.  A lookup promotes its entry to the newest stamp; eviction
takes the eligible entries with the oldest stamps, and equal stamps in key order.  Stamps are 64-bit
and are renumbered before they run out.
-/

namespace Superi
namespace Cache

open Keyed

structure LruEntry (V : Type) where
  value : V
  lastAccess : Nat

structure LruMap (κ V : Type) [Ord κ] where
  entries : Std.ExtTreeMap κ (LruEntry V)
  nextAccess : Nat

namespace LruMap

variable {κ V : Type} [Ord κ] [Std.TransOrd κ]

def default : LruMap κ V where
  entries := ∅
  nextAccess := 0

/-- The retained value under a key, without an access. -/
def value (map : LruMap κ V) (key : κ) : Option V := map.entries[key]?.map LruEntry.value

/-! ## Access stamps -/

/-- The order of eviction: oldest access first, then key order. -/
def olderFirst (left right : Nat × κ) : Bool :=
  (compareLex (compareOn Prod.fst) (compareOn Prod.snd) left right).isLE

/-- Renumber the stamps from zero, in the same order. -/
def normalizeAccessStamps (map : LruMap κ V) : LruMap κ V :=
  let ordered := (map.entries.toList.map fun (key, entry) => (entry.lastAccess, key)).mergeSort
    olderFirst
  { entries := ordered.zipIdx.foldl (fun entries ((_, key), access) =>
      entries.modify key fun entry => { entry with lastAccess := access }) map.entries
    nextAccess := map.entries.size }

/-- The next stamp.  No map in memory is so large that renumbering leaves none. -/
def takeAccessStamp (map : LruMap κ V) : LruMap κ V × Nat :=
  let map := if map.nextAccess = 2 ^ 64 - 1 then map.normalizeAccessStamps else map
  ({ map with nextAccess := map.nextAccess + 1 }, map.nextAccess)

/-! ## Operations -/

def get (map : LruMap κ V) (key : κ) : LruMap κ V × Option V :=
  if map.entries.contains key then
    let (map, access) := map.takeAccessStamp
    let map := { map with
      entries := map.entries.modify key fun entry => { entry with lastAccess := access } }
    (map, map.value key)
  else (map, none)

def insert (map : LruMap κ V) (key : κ) (value : V) : LruMap κ V × Option V :=
  let (map, lastAccess) := map.takeAccessStamp
  ({ map with entries := map.entries.insert key ⟨value, lastAccess⟩ }, map.value key)

def remove (map : LruMap κ V) (key : κ) : LruMap κ V × Option V :=
  ({ map with entries := map.entries.erase key }, map.value key)

/-- Remove the selected keys in order. -/
def removeKeys (map : LruMap κ V) : List κ → LruMap κ V × List (κ × V)
  | [] => (map, [])
  | key :: rest =>
      match map.remove key with
      | (map, none) => map.removeKeys rest
      | (map, some value) =>
          let (map, removed) := map.removeKeys rest
          (map, (key, value) :: removed)

def removeWhere (map : LruMap κ V) (predicate : κ → V → Bool) : LruMap κ V × List (κ × V) :=
  map.removeKeys (map.entries.toList.filterMap fun (key, entry) =>
    if predicate key entry.value then some key else none)

/-- The keys eviction takes: the first `maximum` eligible ones. -/
def victims (map : LruMap κ V) (maximum : Nat) (eligible : κ → Bool) : List κ :=
  ((((map.entries.toList.filter fun (key, _) => eligible key).map fun (key, entry) =>
    (entry.lastAccess, key)).mergeSort olderFirst).take maximum).map Prod.snd

def evictLruWhere (map : LruMap κ V) (maximum : Nat) (eligible : κ → Bool) :
    LruMap κ V × List (κ × V) :=
  map.removeKeys (map.victims maximum eligible)

/-! ## What is retained

Recency decides what eviction takes and nothing else: the other operations are those of a plain map
from keys to values. -/

/-- The retained values, without their stamps. -/
def contents (map : LruMap κ V) : Std.ExtTreeMap κ V := map.entries.map fun _ entry => entry.value

variable [Std.LawfulEqOrd κ] [DecidableEq κ]

omit [DecidableEq κ] in
theorem getElem?_contents (map : LruMap κ V) (key : κ) : map.contents[key]? = map.value key :=
  Std.ExtTreeMap.getElem?_map

omit [DecidableEq κ] in
theorem value_eq_of_contents {map map' : LruMap κ V} (h : map'.contents = map.contents) (key : κ) :
    map'.value key = map.value key := by
  rw [← getElem?_contents, h, getElem?_contents]

omit [DecidableEq κ] in
@[simp] theorem contents_default : (default : LruMap κ V).contents = ∅ := by
  refine Std.ExtTreeMap.ext_getElem? fun key => ?_
  rw [getElem?_contents]
  rfl

/-- A stamp does not touch the values. -/
theorem map_modify_stamp (entries : Std.ExtTreeMap κ (LruEntry V)) (key : κ) (access : Nat) :
    (entries.modify key fun entry => { entry with lastAccess := access }).map
      (fun _ entry => entry.value) = entries.map fun _ entry => entry.value := by
  refine Std.ExtTreeMap.ext_getElem? fun other => ?_
  simp only [Std.ExtTreeMap.getElem?_map, getElem?_modify_eq]
  split
  · cases entries[other]? <;> rfl
  · rfl

theorem contents_normalizeAccessStamps (map : LruMap κ V) :
    map.normalizeAccessStamps.contents = map.contents := by
  simp only [normalizeAccessStamps, contents]
  generalize (List.mergeSort _ _).zipIdx = ordered
  -- each renumbered entry keeps its value
  generalize map.entries = entries
  induction ordered generalizing entries with
  | nil => rfl
  | cons next rest ih =>
      rw [List.foldl_cons, ih, map_modify_stamp]

theorem contents_takeAccessStamp (map : LruMap κ V) :
    map.takeAccessStamp.1.contents = map.contents := by
  simp only [takeAccessStamp]
  split
  · exact map.contents_normalizeAccessStamps
  · rfl

theorem get_spec (map : LruMap κ V) (key : κ) :
    (map.get key).1.contents = map.contents ∧ (map.get key).2 = map.value key := by
  unfold get
  split
  · have hcontents : ({ map.takeAccessStamp.1 with
        entries := map.takeAccessStamp.1.entries.modify key fun entry =>
          { entry with lastAccess := map.takeAccessStamp.2 } } : LruMap κ V).contents =
        map.contents :=
      (map_modify_stamp _ _ _).trans map.contents_takeAccessStamp
    exact ⟨hcontents, value_eq_of_contents hcontents key⟩
  · rename_i habsent
    refine ⟨rfl, ?_⟩
    rw [Bool.not_eq_true, Std.ExtTreeMap.contains_eq_isSome_getElem?] at habsent
    simp only [value, Option.isSome_eq_false_iff, Option.isNone_iff_eq_none] at habsent ⊢
    rw [habsent]
    rfl

theorem insert_spec (map : LruMap κ V) (key : κ) (value : V) :
    (map.insert key value).1.contents = map.contents.insert key value ∧
      (map.insert key value).2 = map.value key := by
  constructor
  · rw [← map.contents_takeAccessStamp]
    refine Std.ExtTreeMap.ext_getElem? fun other => ?_
    simp only [insert, contents, Std.ExtTreeMap.getElem?_map, getElem?_insert_eq]
    split <;> rfl
  · exact value_eq_of_contents map.contents_takeAccessStamp key

theorem remove_spec (map : LruMap κ V) (key : κ) :
    (map.remove key).1.contents = map.contents.erase key ∧
      (map.remove key).2 = map.value key := by
  refine ⟨Std.ExtTreeMap.ext_getElem? fun other => ?_, rfl⟩
  simp only [remove, contents, Std.ExtTreeMap.getElem?_map, getElem?_erase_eq]
  split <;> rfl

/-- Removed values are those of the removed keys, and the others stay. -/
theorem removeKeys_spec (map : LruMap κ V) (keys : List κ) :
    (∀ key, (map.removeKeys keys).1.value key = if key ∈ keys then none else map.value key) ∧
      (valuesOf map.contents).Perm
        ((map.removeKeys keys).2.map Prod.snd ++ valuesOf (map.removeKeys keys).1.contents) := by
  induction keys generalizing map with
  | nil => exact ⟨fun key => rfl, .refl _⟩
  | cons key rest ih =>
      obtain ⟨hcontents, hvalue⟩ := map.remove_spec key
      obtain ⟨hvalues, hperm⟩ := ih (map.remove key).1
      have hsplit := valuesOf_perm_erase map.contents key
      rw [getElem?_contents, ← hvalue, ← hcontents] at hsplit
      have hkept (other : κ) : (if other ∈ rest then none else (map.remove key).1.value other) =
          if other ∈ key :: rest then none else map.value other := by
        rw [← getElem?_contents, hcontents, getElem?_erase_eq, getElem?_contents]
        by_cases heq : other = key <;> by_cases hmem : other ∈ rest <;> simp [heq, hmem]
      cases hremoved : map.remove key with
      | mk removed value =>
          rw [hremoved] at hvalues hperm hsplit hkept
          cases value with
          | none =>
              simp only [removeKeys, hremoved]
              exact ⟨fun other => (hvalues other).trans (hkept other), hsplit.trans hperm⟩
          | some value =>
              simp only [removeKeys, hremoved]
              exact ⟨fun other => (hvalues other).trans (hkept other),
                hsplit.trans (hperm.cons value)⟩

theorem removeWhere_spec (map : LruMap κ V) (predicate : κ → V → Bool) :
    (∀ key, (map.removeWhere predicate).1.value key =
        (map.value key).filter fun value => !predicate key value) ∧
      (valuesOf map.contents).Perm ((map.removeWhere predicate).2.map Prod.snd ++
        valuesOf (map.removeWhere predicate).1.contents) := by
  obtain ⟨hvalue, hperm⟩ := map.removeKeys_spec (map.entries.toList.filterMap fun (key, entry) =>
    if predicate key entry.value then some key else none)
  refine ⟨fun key => (hvalue key).trans ?_, hperm⟩
  -- a key is selected exactly when it holds a value the predicate accepts
  have hselected : (key ∈ map.entries.toList.filterMap fun (key, entry) =>
      if predicate key entry.value then some key else none) ↔
      ∃ entry, map.entries[key]? = some entry ∧ predicate key entry.value = true := by
    simp only [List.mem_filterMap, Prod.exists, Std.ExtTreeMap.mem_toList_iff_getElem?_eq_some,
      Option.ite_none_right_eq_some, Option.some.injEq]
    constructor
    · rintro ⟨other, entry, hentry, hpredicate, rfl⟩
      exact ⟨entry, hentry, hpredicate⟩
    · rintro ⟨entry, hentry, hpredicate⟩
      exact ⟨key, entry, hentry, hpredicate, rfl⟩
  simp only [hselected, value]
  cases hentry : map.entries[key]? with
  | none => simp
  | some entry =>
      cases hpredicate : predicate key entry.value <;>
        simp [hpredicate, Option.filter]

/-- Eviction only removes. -/
theorem evictLruWhere_spec (map : LruMap κ V) (maximum : Nat) (eligible : κ → Bool) :
    (∀ key found, (map.evictLruWhere maximum eligible).1.value key = some found →
        map.value key = some found) ∧
      (valuesOf map.contents).Perm ((map.evictLruWhere maximum eligible).2.map Prod.snd ++
        valuesOf (map.evictLruWhere maximum eligible).1.contents) := by
  obtain ⟨hvalue, hperm⟩ := map.removeKeys_spec (map.victims maximum eligible)
  refine ⟨fun key found hfound => ?_, hperm⟩
  have hkept := (hvalue key).symm.trans hfound
  split at hkept
  · cases hkept
  · exact hkept

end LruMap

end Cache
end Superi

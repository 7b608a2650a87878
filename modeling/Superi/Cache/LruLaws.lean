import Superi.Cache.Lru
import Superi.Lib.History
import Superi.Lib.Machine

/-!
# LruLaws — stamped entries are a recency list

Read in the order of their stamps, the entries of an `LruMap` are a recency list: insertion and a
hit move their key to the back, and eviction takes the first eligible keys.  Renumbering happens in
the middle of an operation and changes the stamps but not the list.
-/

namespace Superi
namespace Cache
namespace LruMap

open Keyed

variable {κ V : Type} [Ord κ] [Std.TransOrd κ]

/-! ## The order of use -/

/-- What the stamped entries are sorted by. -/
def stampOf (item : κ × LruEntry V) : Nat × κ := (item.2.lastAccess, item.1)

def unstamped (item : κ × LruEntry V) : κ × V := (item.1, item.2.value)

/-- The entries from the oldest to the newest. -/
def recency (map : LruMap κ V) : List (κ × V) :=
  (map.entries.toList.mergeSort fun left right =>
    olderFirst (stampOf left) (stampOf right)).map unstamped

/-- The stamps in the order of keys. -/
def stamps (map : LruMap κ V) : List Nat := map.entries.toList.map fun item => item.2.lastAccess

/-- The entries in the order of strictly rising stamps, all of them below the next stamp. -/
structure InOrder (map : LruMap κ V) (items : List (κ × LruEntry V)) : Prop where
  mem_iff : ∀ key entry, (key, entry) ∈ items ↔ map.entries[key]? = some entry
  rising : items.Pairwise fun left right => left.2.lastAccess < right.2.lastAccess
  fresh : ∀ item ∈ items, item.2.lastAccess < map.nextAccess

variable {map : LruMap κ V} {items items' : List (κ × LruEntry V)}

theorem olderFirst_trans (a b c : Nat × κ) (hab : olderFirst a b = true)
    (hbc : olderFirst b c = true) : olderFirst a c = true :=
  Std.TransCmp.isLE_trans hab hbc

theorem olderFirst_total (a b : Nat × κ) : (olderFirst a b || olderFirst b a) = true := by
  unfold olderFirst
  rw [@Std.OrientedCmp.eq_swap _ (compareLex (compareOn Prod.fst) (compareOn Prod.snd)) _ b a]
  cases compareLex (compareOn Prod.fst) (compareOn Prod.snd) a b <;> rfl

omit [Std.TransOrd κ] in
theorem olderFirst_of_lt {a b : Nat × κ} (h : a.1 < b.1) : olderFirst a b = true := by
  unfold olderFirst
  rw [compareLex, compareOn, Nat.compare_eq_lt.2 h]
  rfl

variable [Std.LawfulEqOrd κ]

theorem olderFirst_antisymm (a b : Nat × κ) (hab : olderFirst a b = true)
    (hba : olderFirst b a = true) : a = b := by
  have hlawful : Std.LawfulEqCmp
      (compareLex (compareOn (Prod.fst (α := Nat) (β := κ))) (compareOn Prod.snd)) :=
    lawfulEqCmp_compareLex fun _ _ => Prod.ext
  exact Std.LawfulEqCmp.eq_of_compare (Std.OrientedCmp.isLE_antisymm hab hba)

/-- Sorting by stamps gives the order of use. -/
theorem mergeSort_stampOf {source : List (κ × LruEntry V)} (hperm : source.Perm items)
    (hrising : items.Pairwise fun left right => left.2.lastAccess < right.2.lastAccess) :
    (source.map stampOf).mergeSort olderFirst = items.map stampOf := by
  refine List.Perm.eq_of_pairwise (fun a b _ _ => olderFirst_antisymm a b)
    (List.pairwise_mergeSort olderFirst_trans olderFirst_total _) ?_
    ((List.mergeSort_perm _ _).trans (hperm.map stampOf))
  exact List.pairwise_map.2 (hrising.imp fun hlt => olderFirst_of_lt hlt)

namespace InOrder

omit [Std.LawfulEqOrd κ] in
theorem nodup (h : InOrder map items) : items.Nodup := by
  refine h.rising.imp ?_
  rintro item _ hlt rfl
  exact Nat.lt_irrefl _ hlt

theorem perm (h : InOrder map items) : map.entries.toList.Perm items := by
  have hnodup : map.entries.toList.Nodup := by
    refine .of_map Prod.fst ?_
    rw [Std.ExtTreeMap.map_fst_toList_eq_keys]
    exact nodup_keys map.entries
  refine (List.perm_ext_iff_of_nodup hnodup h.nodup).2 ?_
  rintro ⟨key, entry⟩
  rw [Std.ExtTreeMap.mem_toList_iff_getElem?_eq_some, h.mem_iff]

omit [Std.LawfulEqOrd κ] in
theorem entry_eq (h : InOrder map items) {key : κ} {entry entry' : LruEntry V}
    (hentry : (key, entry) ∈ items) (hentry' : (key, entry') ∈ items) : entry = entry' :=
  Option.some.inj (((h.mem_iff key entry).1 hentry).symm.trans ((h.mem_iff key entry').1 hentry'))

theorem recency_eq (h : InOrder map items) : map.recency = items.map unstamped := by
  have hsorted : (map.entries.toList.mergeSort fun left right =>
      olderFirst (stampOf left) (stampOf right)) = items := by
    refine List.Perm.eq_of_pairwise ?_
      (@List.pairwise_mergeSort _ (fun left right => olderFirst (stampOf left) (stampOf right))
        (fun a b c => olderFirst_trans (stampOf a) (stampOf b) (stampOf c))
        (fun a b => olderFirst_total (stampOf a) (stampOf b)) map.entries.toList)
      (h.rising.imp fun {left right} hlt =>
        olderFirst_of_lt (a := stampOf left) (b := stampOf right) hlt) ((List.mergeSort_perm _ _).trans h.perm)
    -- entries of one stamp and key are one entry
    rintro ⟨key, entry⟩ ⟨key', entry'⟩ hmem hmem' hle hle'
    obtain rfl : key = key' := congrArg Prod.snd (olderFirst_antisymm _ _ hle hle')
    have hitems : (key, entry) ∈ items := h.perm.mem_iff.1 (List.mem_mergeSort.1 hmem)
    rw [h.entry_eq hitems hmem']
  rw [recency, hsorted]

theorem stamps_nodup (h : InOrder map items) : map.stamps.Nodup := by
  refine (h.perm.map _).nodup_iff.2 (List.pairwise_map.2 (h.rising.imp fun hlt => ?_))
  exact Nat.ne_of_lt hlt

theorem keys_nodup (h : InOrder map items) : (items.map Prod.fst).Nodup := by
  refine (h.perm.map Prod.fst).nodup_iff.1 ?_
  rw [Std.ExtTreeMap.map_fst_toList_eq_keys]
  exact nodup_keys map.entries

theorem distinct (h : InOrder map items) : Recency.Distinct (items.map unstamped) := by
  unfold Recency.Distinct
  rw [List.map_map]
  exact h.keys_nodup

omit [Std.LawfulEqOrd κ] in
theorem default : InOrder (LruMap.default : LruMap κ V) [] where
  mem_iff key entry := by simp [LruMap.default]
  rising := .nil
  fresh := nofun

end InOrder

/-! ## Renumbering -/

def restamp (access : Nat) (entry : LruEntry V) : LruEntry V := { entry with lastAccess := access }

/-- The same entries with the stamps `0, 1, …`. -/
def renumbered (items : List (κ × LruEntry V)) : List (κ × LruEntry V) :=
  items.zipIdx.map fun item => (item.1.1, restamp item.2 item.1.2)

omit [Ord κ] [Std.TransOrd κ] [Std.LawfulEqOrd κ] in
theorem renumbered_unstamped : (renumbered items).map unstamped = items.map unstamped := by
  have hfirst : items.zipIdx.map Prod.fst = items := List.zipIdx_map_fst 0 items
  conv_rhs => rw [← hfirst]
  rw [renumbered, List.map_map, List.map_map]
  rfl

omit [Ord κ] [Std.TransOrd κ] [Std.LawfulEqOrd κ] in
theorem getElem?_renumbered (access : Nat) : (renumbered items)[access]? =
    items[access]?.map fun item => (item.1, restamp access item.2) := by
  rw [renumbered, List.getElem?_map, List.getElem?_zipIdx, Option.map_map, Nat.zero_add]
  rfl

omit [Ord κ] [Std.TransOrd κ] [Std.LawfulEqOrd κ] in
theorem mem_renumbered {key : κ} {entry : LruEntry V} : (key, entry) ∈ renumbered items ↔
    ∃ access old, items[access]? = some (key, old) ∧ restamp access old = entry := by
  simp only [List.mem_iff_getElem?, getElem?_renumbered, Option.map_eq_some_iff, Prod.exists,
    Prod.mk.injEq]
  constructor
  · rintro ⟨access, _, old, hitem, rfl, hentry⟩
    exact ⟨access, old, hitem, hentry⟩
  · rintro ⟨access, old, hitem, hentry⟩
    exact ⟨access, key, old, hitem, rfl, hentry⟩

variable [DecidableEq κ]

/-- Restamping a list of keys: every key gets its new stamp, and other entries stay. -/
theorem foldl_restamp {list : List ((Nat × κ) × Nat)} (entries : Std.ExtTreeMap κ (LruEntry V))
    (hnodup : (list.map fun item => item.1.2).Nodup) :
    let restamped := list.foldl (fun entries ((_, key), access) =>
      entries.modify key (restamp access)) entries
    (∀ key, (∀ item ∈ list, item.1.2 ≠ key) → restamped[key]? = entries[key]?) ∧
      ∀ item ∈ list, restamped[item.1.2]? = entries[item.1.2]?.map (restamp item.2) := by
  induction list generalizing entries with
  | nil => exact ⟨fun key _ => rfl, nofun⟩
  | cons first rest ih =>
      obtain ⟨hfirst, hrest⟩ := List.nodup_cons.1 hnodup
      obtain ⟨hother, hstamped⟩ := ih (entries.modify first.1.2 (restamp first.2)) hrest
      have hlater : ∀ item ∈ rest, item.1.2 ≠ first.1.2 := fun item hitem heq =>
        hfirst (List.mem_map.2 ⟨item, hitem, heq⟩)
      refine ⟨fun key hkey => ?_, fun item hitem => ?_⟩
      · rw [List.foldl_cons, hother key fun item hitem => hkey item (.tail _ hitem),
          getElem?_modify_eq, if_neg fun heq => hkey first List.mem_cons_self heq.symm]
      · rw [List.foldl_cons]
        rcases List.mem_cons.1 hitem with rfl | hitem
        · rw [hother _ hlater, getElem?_modify_eq, if_pos rfl]
        · rw [hstamped item hitem, getElem?_modify_eq, if_neg (hlater item hitem)]

omit [DecidableEq κ] in
/-- Renumbering finds the entries in order and stamps each with its position. -/
theorem InOrder.mergeSort_entries (h : InOrder map items) :
    (map.entries.toList.map fun (key, entry) => (entry.lastAccess, key)).mergeSort olderFirst =
      items.map stampOf :=
  mergeSort_stampOf h.perm h.rising

theorem InOrder.entries_normalized (h : InOrder map items) :
    (∀ access key old, items[access]? = some (key, old) →
      map.normalizeAccessStamps.entries[key]? = some (restamp access old)) ∧
    ∀ key, (∀ entry, (key, entry) ∉ items) →
      map.normalizeAccessStamps.entries[key]? = none := by
  have hordered := h.mergeSort_entries
  have hkeys : ((items.map stampOf).zipIdx.map fun item => item.1.2).Nodup := by
    have hfirst : ((items.map stampOf).zipIdx.map fun item => item.1.2) = items.map Prod.fst := by
      rw [show (fun item : (Nat × κ) × Nat => item.1.2) = Prod.snd ∘ Prod.fst from rfl,
        ← List.map_map, List.zipIdx_map_fst, List.map_map]
      rfl
    rw [hfirst]
    exact h.keys_nodup
  obtain ⟨hother, hstamped⟩ := foldl_restamp map.entries hkeys
  unfold LruMap.normalizeAccessStamps
  rw [hordered]
  refine ⟨fun access key old hitem => ?_, fun key habsent => ?_⟩
  · have hmem : ((old.lastAccess, key), access) ∈ (items.map stampOf).zipIdx := by
      rw [List.mk_mem_zipIdx_iff_getElem?, List.getElem?_map, hitem]
      rfl
    have hold := (h.mem_iff key old).1 (List.mem_of_getElem? hitem)
    exact (hstamped _ hmem).trans (by rw [hold]; rfl)
  · refine (hother key ?_).trans ?_
    · rintro ⟨⟨_, _⟩, _⟩ hmem rfl
      obtain ⟨⟨_, entry⟩, hitem, heq⟩ := List.mem_map.1 (List.fst_mem_of_mem_zipIdx hmem)
      cases heq
      exact habsent entry hitem
    · cases hentry : map.entries[key]? with
      | none => rfl
      | some entry => exact absurd ((h.mem_iff key entry).2 hentry) (habsent entry)

theorem InOrder.normalizeAccessStamps (h : InOrder map items) :
    InOrder map.normalizeAccessStamps (renumbered items) := by
  obtain ⟨hstamped, hother⟩ := h.entries_normalized
  refine ⟨fun key entry => mem_renumbered.trans ⟨?_, fun hentry => ?_⟩, ?_, ?_⟩
  · rintro ⟨access, old, hitem, rfl⟩
    exact hstamped access key old hitem
  · by_cases hkey : ∃ old, (key, old) ∈ items
    · obtain ⟨old, hmem⟩ := hkey
      obtain ⟨access, hitem⟩ := List.mem_iff_getElem?.1 hmem
      exact ⟨access, old, hitem, Option.some.inj ((hstamped access key old hitem).symm.trans hentry)⟩
    · rw [hother key fun old hmem => hkey ⟨old, hmem⟩] at hentry
      cases hentry
  · refine List.pairwise_iff_getElem.2 fun i j hi hj hlt => ?_
    have hstamp : ∀ k (hk : k < (renumbered items).length),
        (renumbered items)[k].2.lastAccess = k := fun k hk => by
      simp [renumbered, restamp]
    rw [hstamp, hstamp]
    exact hlt
  · rintro ⟨key, entry⟩ hmem
    obtain ⟨access, old, hitem, rfl⟩ := mem_renumbered.1 hmem
    have hlt := (List.getElem?_eq_some_iff.1 hitem).1
    rw [← h.perm.length_eq, Std.ExtTreeMap.length_toList] at hlt
    exact hlt

/-- The stamp taken is newer than all that are given, and the order of use is as before. -/
theorem InOrder.takeAccessStamp (h : InOrder map items) :
    ∃ items', InOrder map.takeAccessStamp.1 items' ∧
      items'.map unstamped = items.map unstamped ∧
      ∀ item ∈ items', item.2.lastAccess < map.takeAccessStamp.2 := by
  have hfresh : ∀ {map : LruMap κ V} {items}, InOrder map items →
      InOrder { map with nextAccess := map.nextAccess + 1 } items := fun h =>
    ⟨h.mem_iff, h.rising, fun item hitem => Nat.lt_succ_of_lt (h.fresh item hitem)⟩
  unfold LruMap.takeAccessStamp
  split
  · exact ⟨renumbered items, hfresh h.normalizeAccessStamps, renumbered_unstamped,
      h.normalizeAccessStamps.fresh⟩
  · exact ⟨items, hfresh h, rfl, h.fresh⟩

/-! ## Operations on the order of use -/

omit [Std.LawfulEqOrd κ] in
/-- The entry under a key becomes the newest. -/
theorem InOrder.renew (h : InOrder map items) {entries : Std.ExtTreeMap κ (LruEntry V)} {key : κ}
    {value : V} {access : Nat} (haccess : ∀ item ∈ items, item.2.lastAccess < access)
    (hentries : ∀ other, entries[other]? =
      if other = key then some ⟨value, access⟩ else map.entries[other]?) :
    InOrder ⟨entries, access + 1⟩
      (items.filter (fun item => item.1 ≠ key) ++ [(key, ⟨value, access⟩)]) := by
  refine ⟨fun other entry => ?_, ?_, ?_⟩
  · rw [hentries, List.mem_append, List.mem_filter, h.mem_iff, List.mem_singleton]
    by_cases heq : other = key
    · simp [heq, eq_comm]
    · simp [heq]
  · refine List.pairwise_append.2 ⟨h.rising.filter _, List.pairwise_singleton _ _, ?_⟩
    intro item hitem newest hnewest
    rw [List.mem_singleton.1 hnewest]
    exact haccess item (List.mem_filter.1 hitem).1
  · intro item hitem
    rcases List.mem_append.1 hitem with hitem | hitem
    · exact Nat.lt_succ_of_lt (haccess item (List.mem_filter.1 hitem).1)
    · rw [List.mem_singleton.1 hitem]
      exact Nat.lt_succ_self access

omit [Ord κ] [Std.TransOrd κ] [Std.LawfulEqOrd κ] [DecidableEq κ] in
theorem filter_unstamped (p : κ → Bool) :
    (items.filter fun item => p item.1).map unstamped =
      (items.map unstamped).filter fun item => p item.1 := by
  rw [List.filter_map]
  rfl

theorem InOrder.lookup_eq (h : InOrder map items) (key : κ) :
    Recency.lookup (items.map unstamped) key = map.value key := by
  refine Option.ext fun value => ?_
  rw [Recency.lookup_eq_some h.distinct, LruMap.value, Option.map_eq_some_iff, List.mem_map]
  constructor
  · rintro ⟨⟨_, entry⟩, hmem, heq⟩
    cases heq
    exact ⟨entry, (h.mem_iff _ _).1 hmem, rfl⟩
  · rintro ⟨entry, hentry, rfl⟩
    exact ⟨(key, entry), (h.mem_iff _ _).2 hentry, rfl⟩

theorem InOrder.insert (h : InOrder map items) (key : κ) (value : V) :
    ∃ items', InOrder (map.insert key value).1 items' ∧
      items'.map unstamped = Recency.insert (items.map unstamped) key value := by
  obtain ⟨stamped, hstamped, hsame, haccess⟩ := h.takeAccessStamp
  refine ⟨_, hstamped.renew haccess fun other => getElem?_insert_eq, ?_⟩
  rw [List.map_append, filter_unstamped fun other => other ≠ key, hsame]
  rfl

theorem InOrder.get (h : InOrder map items) (key : κ) :
    ∃ items', InOrder (map.get key).1 items' ∧
      items'.map unstamped = Recency.touch (items.map unstamped) key := by
  unfold Recency.touch
  rw [h.lookup_eq]
  unfold LruMap.get
  split
  · obtain ⟨stamped, hstamped, hsame, haccess⟩ := h.takeAccessStamp
    have hvalue := value_eq_of_contents map.contents_takeAccessStamp key
    cases hentry : map.takeAccessStamp.1.entries[key]? with
    | none =>
        rename_i hcontains
        rw [LruMap.value, hentry, LruMap.value] at hvalue
        rw [Std.ExtTreeMap.contains_eq_isSome_getElem?,
          Option.map_eq_none_iff.1 hvalue.symm] at hcontains
        cases hcontains
    | some old =>
        rw [LruMap.value, hentry] at hvalue
        rw [← hvalue]
        have hrenewed : ∀ other, (map.takeAccessStamp.1.entries.modify key fun entry =>
            { entry with lastAccess := map.takeAccessStamp.2 })[other]? =
            if other = key then some ⟨old.value, map.takeAccessStamp.2⟩
            else map.takeAccessStamp.1.entries[other]? := fun other => by
          rw [getElem?_modify_eq]
          split
          · rename_i heq
            rw [heq, hentry]
            rfl
          · rfl
        refine ⟨_, hstamped.renew haccess hrenewed, ?_⟩
        rw [List.map_append, filter_unstamped fun other => other ≠ key, hsame]
        rfl
  · rename_i habsent
    rw [Bool.not_eq_true, Std.ExtTreeMap.contains_eq_isSome_getElem?,
      Option.isSome_eq_false_iff, Option.isNone_iff_eq_none] at habsent
    rw [LruMap.value, habsent]
    exact ⟨items, h, rfl⟩

theorem InOrder.remove (h : InOrder map items) (key : κ) :
    InOrder (map.remove key).1 (items.filter fun item => item.1 ≠ key) where
  mem_iff other entry := by
    rw [LruMap.remove, getElem?_erase_eq, List.mem_filter, h.mem_iff]
    by_cases heq : other = key
    · simp [heq]
    · simp [heq]
  rising := h.rising.filter _
  fresh item hitem := h.fresh item (List.mem_filter.1 hitem).1

/-- Removing entries gives them up one after the other and leaves the others in their order. -/
theorem InOrder.removeKeys (h : InOrder map items) {taken : List (κ × LruEntry V)}
    (htaken : ∀ item ∈ taken, item ∈ items) (hnodup : (taken.map Prod.fst).Nodup) :
    InOrder (map.removeKeys (taken.map Prod.fst)).1
        (items.filter fun item => item.1 ∉ taken.map Prod.fst) ∧
      (map.removeKeys (taken.map Prod.fst)).2 = taken.map unstamped := by
  induction taken generalizing map items with
  | nil =>
      refine ⟨?_, rfl⟩
      simp only [List.map_nil, List.not_mem_nil, not_false_eq_true, decide_true,
        List.filter_true]
      exact h
  | cons first rest ih =>
      obtain ⟨key, entry⟩ := first
      obtain ⟨hfirst, hrest⟩ := List.nodup_cons.1 hnodup
      have hentry := (h.mem_iff key entry).1 (htaken _ List.mem_cons_self)
      have hremoved : map.remove key = ((map.remove key).1, some entry.value) := by
        rw [← show (map.remove key).2 = some entry.value by
          rw [(map.remove_spec key).2, value, hentry]
          rfl]
      -- the entries still to be removed have other keys
      have hothers : ∀ item ∈ rest, item ∈ items.filter fun item => item.1 ≠ key :=
        fun item hitem => List.mem_filter.2 ⟨htaken item (.tail _ hitem),
          decide_eq_true fun heq => hfirst (List.mem_map.2 ⟨item, hitem, heq⟩)⟩
      obtain ⟨horder, hgone⟩ := ih (h.remove key) hothers hrest
      rw [List.map_cons, LruMap.removeKeys, hremoved]
      refine ⟨?_, congrArg _ hgone⟩
      rw [List.filter_filter] at horder
      have hfilter : (fun item : κ × LruEntry V => decide (item.1 ∉ key :: rest.map Prod.fst)) =
          fun item => decide (item.1 ∉ rest.map Prod.fst) && decide (item.1 ≠ key) := by
        funext item
        rw [← Bool.decide_and]
        exact decide_eq_decide.2 (by rw [List.mem_cons, not_or, and_comm])
      rw [hfilter]
      exact horder

omit [DecidableEq κ] in
/-- Eviction takes the first eligible entries. -/
theorem InOrder.mergeSort_eligible (h : InOrder map items) (eligible : κ → Bool) :
    ((map.entries.toList.filter fun (key, _) => eligible key).map fun (key, entry) =>
        (entry.lastAccess, key)).mergeSort olderFirst =
      (items.filter fun item => eligible item.1).map stampOf :=
  mergeSort_stampOf (h.perm.filter _) (h.rising.filter _)

omit [DecidableEq κ] in
theorem InOrder.victims_eq (h : InOrder map items) (maximum : Nat) (eligible : κ → Bool) :
    map.victims maximum eligible =
      ((items.filter fun item => eligible item.1).take maximum).map Prod.fst := by
  rw [victims, h.mergeSort_eligible, ← List.map_take, List.map_map]
  rfl

theorem InOrder.evictLruWhere (h : InOrder map items) (maximum : Nat) (eligible : κ → Bool) :
    ∃ items', InOrder (map.evictLruWhere maximum eligible).1 items' ∧
      ((map.evictLruWhere maximum eligible).2, items'.map unstamped) =
        Recency.evict eligible maximum (items.map unstamped) := by
  have htaken : ∀ item ∈ (items.filter fun item => eligible item.1).take maximum, item ∈ items :=
    fun item hitem => (List.mem_filter.1 (List.mem_of_mem_take hitem)).1
  have hnodup : (((items.filter fun item => eligible item.1).take maximum).map Prod.fst).Nodup :=
    h.keys_nodup.sublist ((((List.take_sublist _ _).trans List.filter_sublist)).map Prod.fst)
  obtain ⟨horder, hgone⟩ := h.removeKeys htaken hnodup
  rw [← h.victims_eq] at horder hgone
  refine ⟨_, horder, ?_⟩
  have hevicted : (Recency.evict eligible maximum (items.map unstamped)).1 =
      ((items.filter fun item => eligible item.1).take maximum).map unstamped := by
    rw [Recency.evict_fst, ← filter_unstamped, List.map_take]
  refine Prod.ext (hgone.trans hevicted.symm) ?_
  rw [Recency.evict_snd eligible maximum h.distinct, hevicted,
    filter_unstamped fun key => key ∉ map.victims maximum eligible, h.victims_eq, List.map_map]
  rfl

omit [Std.LawfulEqOrd κ] [DecidableEq κ] in
/-- Selected entries are removed in the order of their keys. -/
theorem selectedKeys_eq (map : LruMap κ V) (predicate : κ → V → Bool) :
    (map.entries.toList.filterMap fun (key, entry) =>
        if predicate key entry.value then some key else none) =
      (map.entries.toList.filter fun item => predicate item.1 item.2.value).map Prod.fst := by
  rw [← List.filterMap_eq_map, List.filterMap_filter]
  rfl

theorem InOrder.removeWhere (h : InOrder map items) (predicate : κ → V → Bool) :
    ∃ items', InOrder (map.removeWhere predicate).1 items' ∧
      items'.map unstamped = (items.map unstamped).filter (fun item => !predicate item.1 item.2) ∧
      (map.removeWhere predicate).2 = ((items.map unstamped).filter fun item =>
        predicate item.1 item.2).mergeSort fun left right => (compare left.1 right.1).isLE := by
  let selected := map.entries.toList.filter fun item => predicate item.1 item.2.value
  have hkeys := map.selectedKeys_eq predicate
  have htaken : ∀ item ∈ selected, item ∈ items := fun item hitem =>
    h.perm.mem_iff.1 (List.mem_filter.1 hitem).1
  have hnodup : (selected.map Prod.fst).Nodup := by
    refine List.Nodup.sublist (List.filter_sublist.map Prod.fst) ?_
    rw [Std.ExtTreeMap.map_fst_toList_eq_keys]
    exact nodup_keys map.entries
  obtain ⟨horder, hgone⟩ := h.removeKeys htaken hnodup
  rw [← hkeys] at horder hgone
  refine ⟨_, horder, ?_, ?_⟩
  · rw [List.filter_map]
    refine congrArg _ (List.filter_congr fun item hitem => ?_)
    have hselected : item.1 ∈ selected.map Prod.fst ↔ predicate item.1 item.2.value = true := by
      rw [List.mem_map]
      constructor
      · rintro ⟨other, hother, heq⟩
        obtain ⟨key, entry⟩ := item
        obtain ⟨_, other⟩ := other
        cases heq
        rw [h.entry_eq hitem (htaken _ hother)]
        exact (List.mem_filter.1 hother).2
      · intro hpredicate
        exact ⟨item, List.mem_filter.2 ⟨h.perm.mem_iff.2 hitem, hpredicate⟩, rfl⟩
    rw [hkeys, Bool.eq_iff_iff, decide_eq_true_iff, hselected]
    simp [unstamped]
  · -- both lists are sorted by key, and no key has two entries
    refine hgone.trans ?_
    have hperm : (selected.map unstamped).Perm
        ((items.map unstamped).filter fun item => predicate item.1 item.2) := by
      rw [List.filter_map]
      exact (h.perm.filter _).map unstamped
    refine List.Perm.eq_of_pairwise ?_ ?_
      (@List.pairwise_mergeSort _ (fun left right : κ × V => (compare left.1 right.1).isLE)
        (fun _ _ _ => Std.TransOrd.isLE_trans) ?_ _)
      (hperm.trans (List.mergeSort_perm _ _).symm)
    · intro left right hleft hright hle hge
      have hkey : left.1 = right.1 :=
        Std.LawfulEqOrd.eq_of_compare (Std.OrientedCmp.isLE_antisymm hle hge)
      have hright := List.mem_of_mem_filter (List.mem_mergeSort.1 hright)
      have hleft := List.mem_of_mem_filter (hperm.mem_iff.1 hleft)
      exact List.inj_on_of_nodup_map h.distinct hleft hright hkey
    · refine List.pairwise_map.2 (List.Pairwise.filter _ ?_)
      exact map.entries.ordered_keys_toList.imp fun hlt => Ordering.isLE_of_eq_lt hlt
    · intro left right
      rw [@Std.OrientedCmp.eq_swap _ compare _ right.1 left.1]
      cases compare left.1 right.1 <;> rfl

end LruMap

/-! ## Runs -/

/-- What callers do to the map. -/
inductive LruOperation (κ V : Type) where
  | get (key : κ)
  | insert (key : κ) (value : V)
  | remove (key : κ)
  | removeWhere (predicate : κ → V → Bool)
  | evictLruWhere (maximum : Nat) (eligible : κ → Bool)

/-- What they get back. -/
inductive LruAnswer (κ V : Type) where
  | value (found : Option V)
  | entries (removed : List (κ × V))
  deriving DecidableEq

namespace LruMap

section Step

variable {κ V : Type} [Ord κ] [Std.TransOrd κ]

def step (map : LruMap κ V) : LruOperation κ V → LruMap κ V × LruAnswer κ V
  | .get key => Prod.map id .value (map.get key)
  | .insert key value => Prod.map id .value (map.insert key value)
  | .remove key => Prod.map id .value (map.remove key)
  | .removeWhere predicate => Prod.map id .entries (map.removeWhere predicate)
  | .evictLruWhere maximum eligible =>
      Prod.map id .entries (map.evictLruWhere maximum eligible)

end Step

variable {κ V : Type} [Ord κ] [DecidableEq κ]

/-- The same operations on a recency list. -/
def recencyStep (entries : List (κ × V)) : LruOperation κ V → List (κ × V) × LruAnswer κ V
  | .get key => (Recency.touch entries key, .value (Recency.lookup entries key))
  | .insert key value => (Recency.insert entries key value, .value (Recency.lookup entries key))
  | .remove key => (Recency.remove entries key, .value (Recency.lookup entries key))
  | .removeWhere predicate =>
      (entries.filter fun entry => !predicate entry.1 entry.2,
        .entries ((entries.filter fun entry => predicate entry.1 entry.2).mergeSort
          fun left right => (compare left.1 right.1).isLE))
  | .evictLruWhere maximum eligible =>
      ((Recency.evict eligible maximum entries).2,
        .entries (Recency.evict eligible maximum entries).1)

variable [Std.TransOrd κ] [Std.LawfulEqOrd κ] {map : LruMap κ V}
  {items : List (κ × LruEntry V)}

/-- Every operation does to the order of use what it does to the recency list. -/
theorem InOrder.step (h : InOrder map items) (operation : LruOperation κ V) :
    (∃ items', InOrder (map.step operation).1 items' ∧
      items'.map unstamped = (recencyStep (items.map unstamped) operation).1) ∧
      (map.step operation).2 = (recencyStep (items.map unstamped) operation).2 := by
  cases operation with
  | get key =>
      exact ⟨h.get key, congrArg _ ((map.get_spec key).2.trans (h.lookup_eq key).symm)⟩
  | insert key value =>
      exact ⟨h.insert key value,
        congrArg _ ((map.insert_spec key value).2.trans (h.lookup_eq key).symm)⟩
  | remove key =>
      exact ⟨⟨_, h.remove key, filter_unstamped fun other => other ≠ key⟩,
        congrArg _ ((map.remove_spec key).2.trans (h.lookup_eq key).symm)⟩
  | removeWhere predicate =>
      obtain ⟨items', horder, hkept, hremoved⟩ := h.removeWhere predicate
      exact ⟨⟨items', horder, hkept⟩, congrArg _ hremoved⟩
  | evictLruWhere maximum eligible =>
      obtain ⟨items', horder, hevicted⟩ := h.evictLruWhere maximum eligible
      exact ⟨⟨items', horder, congrArg Prod.snd hevicted⟩,
        congrArg (fun both : List (κ × V) × List (κ × V) => LruAnswer.entries both.1) hevicted⟩

/-! ## The stamps fit -/

omit [Std.LawfulEqOrd κ] [DecidableEq κ] in
theorem removeKeys_nextAccess (map : LruMap κ V) (keys : List κ) :
    (map.removeKeys keys).1.nextAccess = map.nextAccess := by
  induction keys generalizing map with
  | nil => rfl
  | cons key rest ih =>
      rw [removeKeys]
      split
      · rename_i removed hremoved
        rw [ih, show removed = (map.remove key).1 by rw [hremoved]]
        rfl
      · rename_i removed value hremoved
        refine (ih removed).trans ?_
        rw [show removed = (map.remove key).1 by rw [hremoved]]
        rfl

omit [Std.LawfulEqOrd κ] [DecidableEq κ] in
theorem takeAccessStamp_fits (hnext : map.nextAccess ≤ 2 ^ 64 - 1)
    (hsize : map.entries.size < 2 ^ 64 - 1) :
    map.takeAccessStamp.1.nextAccess ≤ 2 ^ 64 - 1 := by
  unfold takeAccessStamp
  split
  · exact hsize
  · rename_i hne
    exact Nat.lt_of_le_of_ne hnext hne

omit [Std.LawfulEqOrd κ] [DecidableEq κ] in
theorem step_fits (operation : LruOperation κ V) (hnext : map.nextAccess ≤ 2 ^ 64 - 1)
    (hsize : map.entries.size < 2 ^ 64 - 1) :
    (map.step operation).1.nextAccess ≤ 2 ^ 64 - 1 := by
  have htaken := takeAccessStamp_fits hnext hsize
  cases operation with
  | get key =>
      simp only [step, Prod.map, id, LruMap.get]
      split
      · exact htaken
      · exact hnext
  | insert key value => exact htaken
  | remove key => exact hnext
  | removeWhere predicate => exact Nat.le_trans (Nat.le_of_eq (removeKeys_nextAccess map _)) hnext
  | evictLruWhere maximum eligible => exact Nat.le_trans (Nat.le_of_eq (removeKeys_nextAccess map _)) hnext

omit [Std.LawfulEqOrd κ] [DecidableEq κ] in
theorem answers_fits {operations : List (LruOperation κ V)} (hnext : map.nextAccess ≤ 2 ^ 64 - 1)
    (hsize : ∀ count, (Machine.answers step map (operations.take count)).1.entries.size <
      2 ^ 64 - 1) :
    (Machine.answers step map operations).1.nextAccess ≤ 2 ^ 64 - 1 := by
  induction operations generalizing map with
  | nil => exact hnext
  | cons operation rest ih =>
      exact ih (step_fits operation hnext (hsize 0)) fun count => hsize (count + 1)

/-! ## The refinement -/

/-- A map whose stamps order its entries answers every run of operations as its recency list does,
and stays such a map. -/
theorem InOrder.answers (h : InOrder map items) (operations : List (LruOperation κ V)) :
    (∃ items', InOrder (Machine.answers LruMap.step map operations).1 items' ∧
      items'.map unstamped =
        (Machine.answers recencyStep (items.map unstamped) operations).1) ∧
      (Machine.answers LruMap.step map operations).2 =
        (Machine.answers recencyStep (items.map unstamped) operations).2 := by
  refine Machine.answers_simulate
    (R := fun map entries => ∃ items, InOrder map items ∧ items.map unstamped = entries)
    ?_ ⟨items, h, rfl⟩ operations
  rintro map _ operation ⟨items, h, rfl⟩
  exact h.step operation

/-- An `LruMap` is a recency list: from the empty map on, every run of operations gives the answers
of the list in which a use moves its key to the back and eviction takes the first eligible keys; the
entries in the order of their stamps are that list, and all stamps are distinct.  The counter is a
`u64` as long as the map stays smaller than that. -/
theorem lruMap_is_recency_list (operations : List (LruOperation κ V)) :
    let reached := Machine.answers step (default : LruMap κ V) operations
    let listed := Machine.answers recencyStep [] operations
    reached.1.recency = listed.1 ∧ reached.2 = listed.2 ∧ reached.1.stamps.Nodup ∧
      (∀ stamp ∈ reached.1.stamps, stamp < reached.1.nextAccess) ∧
      ((∀ count, (Machine.answers step (default : LruMap κ V)
          (operations.take count)).1.entries.size < 2 ^ 64 - 1) →
        reached.1.nextAccess ≤ 2 ^ 64 - 1) := by
  obtain ⟨⟨items, horder, hlisted⟩, hanswers⟩ := InOrder.answers InOrder.default operations
  refine ⟨horder.recency_eq.trans hlisted, hanswers, horder.stamps_nodup, ?_, ?_⟩
  · intro stamp hstamp
    obtain ⟨item, hitem, rfl⟩ := List.mem_map.1 hstamp
    exact horder.fresh item (horder.perm.mem_iff.1 hitem)
  · exact answers_fits (Nat.zero_le _)

/-- A hit on the older of two entries. -/
def hitOlder : List (LruOperation Nat Nat) := [.insert 1 10, .insert 2 20, .get 1]

theorem lruMap_is_recency_list_hit :
    (Machine.answers step default hitOlder).1.recency = [(2, 20), (1, 10)] ∧
      (Machine.answers step default hitOlder).1.nextAccess ≤ 2 ^ 64 - 1 := by
  obtain ⟨hrecency, -, -, -, hfits⟩ := lruMap_is_recency_list hitOlder
  refine ⟨hrecency.trans (by decide), hfits fun count => ?_⟩
  match count with
  | 0 | 1 | 2 => decide +kernel
  | count + 3 =>
      have hall : hitOlder.take (count + 3) = hitOlder :=
        List.take_of_length_le (Nat.le_add_left 3 count)
      rw [hall]
      decide +kernel

end LruMap
end Cache
end Superi

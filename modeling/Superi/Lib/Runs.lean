import Superi.Lib.Piecewise

/-!
# Runs — canonical lists of labelled intervals

Intervals with gaps between them also draw a function: an instant in no interval has no value.  When
the intervals are in order, none is empty, and two that touch differ in their labels, the list is
determined by the function.  So whoever keeps lists in this form compares functions by comparing
lists.
-/

namespace Superi
namespace Runs

open Piecewise

variable {ι K V : Type*} [LinearOrder K] {lo hi : ι → K} {label : ι → V}

/-- Ordered intervals, none of them empty; touching neighbours carry different labels. -/
structure Canonical (lo hi : ι → K) (label : ι → V) (items : List ι) : Prop where
  positive : ∀ i ∈ items, lo i < hi i
  ordered : items.Pairwise fun i j => hi i ≤ lo j
  distinct : items.IsChain fun i j => hi i = lo j → label i ≠ label j

/-! ## Reading -/

theorem valueAt_eq_none {items : List ι} {t : K} (h : ∀ i ∈ items, ¬ (lo i ≤ t ∧ t < hi i)) :
    valueAt lo hi label items t = none := by
  rw [valueAt, Option.map_eq_none_iff, List.find?_eq_none]
  intro i hi' hcovers
  exact h i hi' (of_decide_eq_true (p := _ ∧ _) hcovers)

theorem exists_of_valueAt {items : List ι} {t : K} {v : V}
    (h : valueAt lo hi label items t = some v) :
    ∃ i ∈ items, (lo i ≤ t ∧ t < hi i) ∧ label i = v := by
  obtain ⟨i, hfound, hlabel⟩ := Option.map_eq_some_iff.1 h
  have hcovers := List.find?_some hfound
  exact ⟨i, List.mem_of_find?_eq_some hfound, by simpa using hcovers, hlabel⟩

namespace Canonical

variable {items items' front : List ι} {i j k : ι} {t : K}

theorem nil : Canonical lo hi label [] := ⟨by simp, .nil, .nil⟩

theorem tail (h : Canonical lo hi label (i :: items)) : Canonical lo hi label items :=
  ⟨fun j hj => h.positive j (List.mem_cons_of_mem _ hj), h.ordered.of_cons, h.distinct.tail⟩

/-- The first interval ends before all others start. -/
theorem head_le (h : Canonical lo hi label (i :: items)) (hj : j ∈ items) : hi i ≤ lo j :=
  List.rel_of_pairwise_cons h.ordered hj

/-- The value at an instant is the label of the one interval that covers it. -/
theorem valueAt_eq (h : Canonical lo hi label items) (hi' : i ∈ items) (ht : lo i ≤ t ∧ t < hi i) :
    valueAt lo hi label items t = some (label i) := by
  induction items with
  | nil => cases hi'
  | cons j rest ih =>
      rw [valueAt_cons]
      rcases List.mem_cons.1 hi' with rfl | hrest
      · rw [if_pos ht]
      · rw [if_neg fun hcovers => absurd (h.head_le hrest)
          (not_le.2 (lt_of_le_of_lt ht.1 hcovers.2))]
        exact ih h.tail hrest

/-- Before the end of the first interval the others have no value. -/
theorem valueAt_tail (h : Canonical lo hi label (i :: items)) (ht : t < hi i) :
    valueAt lo hi label items t = none :=
  valueAt_eq_none fun _ hj hcovers =>
    absurd (hcovers.1.trans_lt ht) (not_lt.2 (h.head_le hj))

/-! ## Uniqueness -/

/-- Where the first interval starts, nothing before has a value. -/
theorem head_le_of_value (h : Canonical lo hi label (i :: items))
    (hvalue : valueAt lo hi label (i :: items) t ≠ none) : lo i ≤ t := by
  obtain ⟨v, hv⟩ := Option.ne_none_iff_exists'.1 hvalue
  obtain ⟨j, hj, hcovers, -⟩ := exists_of_valueAt hv
  rcases List.mem_cons.1 hj with rfl | hj
  · exact hcovers.1
  · exact (h.positive i List.mem_cons_self).le.trans ((h.head_le hj).trans hcovers.1)

theorem valueAt_head (h : Canonical lo hi label (i :: items)) :
    valueAt lo hi label (i :: items) (lo i) = some (label i) :=
  h.valueAt_eq List.mem_cons_self ⟨le_rfl, h.positive i List.mem_cons_self⟩

/-- The value changes where the first interval ends. -/
theorem valueAt_end (h : Canonical lo hi label (i :: items)) :
    valueAt lo hi label (i :: items) (hi i) ≠ some (label i) := by
  intro hvalue
  obtain ⟨j, hj, hcovers, hlabel⟩ := exists_of_valueAt hvalue
  rcases List.mem_cons.1 hj with rfl | hj
  · exact lt_irrefl _ hcovers.2
  · cases items with
    | nil => cases hj
    | cons k rest =>
        have htouch : hi i = lo j := le_antisymm (h.head_le hj) hcovers.1
        rcases List.mem_cons.1 hj with rfl | hrest
        · exact (List.isChain_cons_cons.1 h.distinct).1 htouch hlabel.symm
        · -- an interval between the two would be empty
          have hk := h.positive k (by simp)
          have hik := h.head_le (List.mem_cons_self (a := k) (l := rest))
          exact absurd (hik.trans_lt hk) (not_lt.2 ((h.tail.head_le hrest).trans htouch.ge))

theorem end_le_of_value (h : Canonical lo hi label (i :: items))
    (h' : Canonical lo hi label (j :: items'))
    (hvalue : ∀ t, valueAt lo hi label (i :: items) t = valueAt lo hi label (j :: items') t)
    (hlo : lo i = lo j) (hlabel : label i = label j) : hi j ≤ hi i := by
  by_contra hlt
  rw [not_le] at hlt
  have hcovered : lo j ≤ hi i ∧ hi i < hi j :=
    ⟨hlo ▸ (h.positive i List.mem_cons_self).le, hlt⟩
  have hsame := (hvalue (hi i)).trans (h'.valueAt_eq List.mem_cons_self hcovered)
  exact h.valueAt_end (hlabel ▸ hsame)

/-- Two canonical lists that draw one function are equal. -/
theorem unique (hext : ∀ i j : ι, lo i = lo j → hi i = hi j → label i = label j → i = j)
    (h : Canonical lo hi label items) (h' : Canonical lo hi label items')
    (hvalue : ∀ t, valueAt lo hi label items t = valueAt lo hi label items' t) : items = items' := by
  induction items generalizing items' with
  | nil =>
      cases items' with
      | nil => rfl
      | cons j rest =>
          have hhead := (hvalue (lo j)).trans h'.valueAt_head
          cases hhead
  | cons i is ih =>
      cases items' with
      | nil =>
          have hhead := (hvalue (lo i)).symm.trans h.valueAt_head
          cases hhead
      | cons j js =>
          have hlo : lo i = lo j := by
            apply le_antisymm
            · apply h.head_le_of_value
              rw [hvalue, h'.valueAt_head]
              exact nofun
            · apply h'.head_le_of_value
              rw [← hvalue, h.valueAt_head]
              exact nofun
          have hlabel : label i = label j := by
            have hhead := h.valueAt_head.symm.trans ((hvalue _).trans (hlo ▸ h'.valueAt_head))
            exact Option.some.inj hhead
          have hend : hi i = hi j := le_antisymm
            (end_le_of_value h' h (fun t => (hvalue t).symm) hlo.symm hlabel.symm)
            (end_le_of_value h h' hvalue hlo hlabel)
          cases hext i j hlo hend hlabel
          rw [ih h.tail h'.tail fun t => ?_]
          rcases lt_or_ge t (hi i) with ht | ht
          · rw [h.valueAt_tail ht, h'.valueAt_tail ht]
          · have hrest := hvalue t
            rw [valueAt_cons, valueAt_cons, if_neg fun hcovers => not_lt.2 ht hcovers.2,
              if_neg fun hcovers => not_lt.2 ht hcovers.2] at hrest
            exact hrest

/-! ## Building -/

/-- Behind the last interval there is no value. -/
theorem valueAt_behind (h : Canonical lo hi label items) (hlast : ∀ j ∈ items.getLast?, hi j ≤ t) :
    valueAt lo hi label items t = none := by
  rcases List.eq_nil_or_concat' items with rfl | ⟨front, last, rfl⟩
  · rfl
  · have hend : hi last ≤ t := hlast last List.getLast?_concat
    apply valueAt_eq_none
    intro k hk hcovers
    rcases List.mem_append.1 hk with hk | hk
    · have hbefore : hi k ≤ lo last := (List.pairwise_append.1 h.ordered).2.2 k hk last (by simp)
      have hpos : lo last < hi last := h.positive last (by simp)
      exact absurd (hcovers.2.trans_le (hbefore.trans hpos.le)) (not_lt.2 hend)
    · rw [List.mem_singleton.1 hk] at hcovers
      exact absurd hcovers.2 (not_lt.2 hend)

/-- Nothing is drawn behind the last interval. -/
theorem hi_le_last (h : Canonical lo hi label (front ++ [j])) (hk : k ∈ front) : hi k ≤ lo j :=
  (List.pairwise_append.1 h.ordered).2.2 k hk j (List.mem_singleton_self j)

/-- An interval that starts behind the last one, or touches it with another label. -/
theorem push (h : Canonical lo hi label items) (hpos : lo i < hi i)
    (hlast : ∀ j ∈ items.getLast?, hi j ≤ lo i ∧ (hi j = lo i → label j ≠ label i)) :
    Canonical lo hi label (items ++ [i]) ∧
      ∀ t, valueAt lo hi label (items ++ [i]) t =
        paint (valueAt lo hi label items) (lo i) (hi i) (label i) t := by
  have hbefore : ∀ k ∈ items, hi k ≤ lo i := by
    intro k hk
    obtain ⟨front, last, rfl⟩ := List.eq_nil_or_concat' items |>.resolve_left (List.ne_nil_of_mem hk)
    obtain ⟨hle, -⟩ := hlast last List.getLast?_concat
    rcases List.mem_append.1 hk with hk | hk
    · exact (h.hi_le_last hk).trans ((h.positive last (by simp)).le.trans hle)
    · exact List.mem_singleton.1 hk ▸ hle
  refine ⟨⟨?_, ?_, ?_⟩, fun t => ?_⟩
  · intro k hk
    rcases List.mem_append.1 hk with hk | hk
    · exact h.positive k hk
    · exact List.mem_singleton.1 hk ▸ hpos
  · refine List.pairwise_append.2 ⟨h.ordered, List.pairwise_singleton _ _, fun k hk l hl => ?_⟩
    rw [List.mem_singleton.1 hl]
    exact hbefore k hk
  · refine List.isChain_append.2 ⟨h.distinct, .singleton i, fun k hk l hl => ?_⟩
    rw [List.head?_cons, Option.mem_some_iff] at hl
    exact hl ▸ (hlast k hk).2
  · rw [valueAt_append, valueAt_cons, valueAt_nil, paint]
    by_cases hcovers : lo i ≤ t ∧ t < hi i
    · rw [if_pos hcovers, if_pos hcovers, valueAt_eq_none fun k hk hcovered =>
        absurd (hcovered.2.trans_le (hbefore k hk)) (not_lt.2 hcovers.1), Option.none_or]
    · rw [if_neg hcovers, if_neg hcovers, Option.or_none]

/-- The last interval grows by one of its label that starts in it or touches it. -/
theorem grow (h : Canonical lo hi label (front ++ [j])) (hstart : lo j ≤ lo i) (htouch : lo i ≤ hi j)
    (hlabel : label i = label j) (hklo : lo k = lo j) (hkhi : hi k = max (hi j) (hi i))
    (hklabel : label k = label j) :
    Canonical lo hi label (front ++ [k]) ∧
      ∀ t, valueAt lo hi label (front ++ [k]) t =
        paint (valueAt lo hi label (front ++ [j])) (lo i) (hi i) (label i) t := by
  have hjpos : lo j < hi j := h.positive j (by simp)
  refine ⟨⟨?_, ?_, ?_⟩, fun t => ?_⟩
  · intro l hl
    rcases List.mem_append.1 hl with hl | hl
    · exact h.positive l (List.mem_append_left _ hl)
    · rw [List.mem_singleton.1 hl, hklo, hkhi]
      exact hjpos.trans_le (le_max_left _ _)
  · refine List.pairwise_append.2 ⟨(List.pairwise_append.1 h.ordered).1,
      List.pairwise_singleton _ _, fun l hl l' hl' => ?_⟩
    rw [List.mem_singleton.1 hl', hklo]
    exact h.hi_le_last hl
  · obtain ⟨hfront, -, hborder⟩ := List.isChain_append.1 h.distinct
    refine List.isChain_append.2 ⟨hfront, .singleton k, fun l hl l' hl' => ?_⟩
    rw [List.head?_cons, Option.mem_some_iff] at hl'
    rw [← hl', hklo, hklabel]
    exact hborder l hl j (by rw [List.head?_cons]; rfl)
  · -- an instant of the grown interval lies in the old one or in the added one
    have hfront : lo j ≤ t → valueAt lo hi label front t = none := fun ht =>
      valueAt_eq_none fun l hl hcovers =>
        absurd (hcovers.2.trans_le (h.hi_le_last hl)) (not_lt.2 ht)
    simp only [valueAt_append, valueAt_cons, valueAt_nil, paint, hklo, hkhi, hklabel, hlabel]
    rcases lt_or_ge t (lo j) with ht | ht
    · have hti : t < lo i := ht.trans_le hstart
      rw [if_neg fun hcovers => not_le.2 ht hcovers.1, if_neg fun hcovers => not_le.2 hti hcovers.1,
        if_neg fun hcovers => not_le.2 ht hcovers.1]
    · rw [hfront ht, Option.none_or, Option.none_or]
      by_cases hcovers : lo i ≤ t ∧ t < hi i
      · rw [if_pos hcovers, if_pos ⟨ht, hcovers.2.trans_le (le_max_right _ _)⟩]
      · rw [if_neg hcovers]
        congr 1
        refine propext (and_congr_right fun _ => ⟨fun hlt => ?_, fun hlt => hlt.trans_le (le_max_left _ _)⟩)
        rcases lt_max_iff.1 hlt with hlt | hlt
        · exact hlt
        · exact (not_le.1 fun hle => hcovers ⟨hle, hlt⟩).trans_le htouch

end Canonical

/-! ## Windows -/

/-- Among edges in order, the window around an instant is crossed by no edge. -/
theorem exists_window {edges : List K} {t a b : K} (h : edges.Pairwise (· < ·)) (ha : a ∈ edges)
    (hat : a ≤ t) (hb : b ∈ edges) (htb : t < b) :
    ∃ w ∈ edges.zip edges.tail, (w.1 ≤ t ∧ t < w.2) ∧
      (∀ e ∈ edges, e ≤ t → e ≤ w.1) ∧ ∀ e ∈ edges, t < e → w.2 ≤ e := by
  induction edges generalizing a with
  | nil => cases ha
  | cons c rest ih =>
      have hhead : ∀ e ∈ rest, c < e := fun e he => List.rel_of_pairwise_cons h he
      have hct : c ≤ t := by
        rcases List.mem_cons.1 ha with rfl | ha
        · exact hat
        · exact (hhead a ha).le.trans hat
      have hbrest : b ∈ rest := (List.mem_cons.1 hb).resolve_left fun hbc =>
        absurd htb (not_lt.2 (hbc ▸ hct))
      cases rest with
      | nil => cases hbrest
      | cons d rest =>
          rcases le_or_gt d t with hdt | htd
          · -- the window lies behind the first edge
            obtain ⟨w, hw, hcovers, hbefore, hbehind⟩ := ih h.of_cons List.mem_cons_self hdt hbrest
            refine ⟨w, List.mem_cons_of_mem _ hw, hcovers, fun e he het => ?_, fun e he hte => ?_⟩
            · rcases List.mem_cons.1 he with rfl | he
              · exact (hhead d List.mem_cons_self).le.trans (hbefore d List.mem_cons_self hdt)
              · exact hbefore e he het
            · rcases List.mem_cons.1 he with rfl | he
              · exact absurd hte (not_lt.2 hct)
              · exact hbehind e he hte
          · have hd : ∀ e ∈ d :: rest, d ≤ e := fun e he => by
              rcases List.mem_cons.1 he with rfl | he
              · exact le_rfl
              · exact (List.rel_of_pairwise_cons h.of_cons he).le
            refine ⟨(c, d), List.mem_cons_self, ⟨hct, htd⟩, fun e he het => ?_, fun e he hte => ?_⟩
            · rcases List.mem_cons.1 he with rfl | he
              · exact le_rfl
              · exact absurd (htd.trans_le (hd e he)) (not_lt.2 het)
            · rcases List.mem_cons.1 he with rfl | he
              · exact absurd hte (not_lt.2 hct)
              · exact hd e he

end Runs
end Superi

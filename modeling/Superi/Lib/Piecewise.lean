import Mathlib
import Superi.Lib.Tiling

/-!
# Piecewise — functions drawn by labelled intervals

A list of labelled intervals that tiles a segment *draws* a function: at an instant it takes the
label of the interval that covers the instant, and it has no value outside the segment.  The drawing
is compact when no interval is empty and no two neighbours carry one label.

Appending an interval, growing the last one and moving the border of two neighbours all paint over
the drawn function, and keep a drawing compact.
-/

namespace Superi
namespace Piecewise

open Tiling

variable {ι K V : Type*} [LinearOrder K] {lo hi : ι → K} {label : ι → V}

/-- The label of the interval that covers `t`. -/
def valueAt (lo hi : ι → K) (label : ι → V) (items : List ι) (t : K) : Option V :=
  (items.find? fun i => decide (lo i ≤ t ∧ t < hi i)).map label

/-- `f`, with the value `v` on `[x, y)`. -/
def paint (f : K → Option V) (x y : K) (v : V) (t : K) : Option V :=
  if x ≤ t ∧ t < y then some v else f t

/-- `f`, with every value it takes on `[x, y)` replaced by `v`. -/
def repaint (f : K → Option V) (x y : K) (v : V) (t : K) : Option V :=
  if x ≤ t ∧ t < y then (f t).map fun _ => v else f t

/-! ## Reading a drawing -/

@[simp] theorem valueAt_nil (t : K) : valueAt lo hi label [] t = none := rfl

theorem valueAt_cons (i : ι) (is : List ι) (t : K) : valueAt lo hi label (i :: is) t =
    if lo i ≤ t ∧ t < hi i then some (label i) else valueAt lo hi label is t := by
  by_cases h : lo i ≤ t ∧ t < hi i <;> simp [valueAt, h]

theorem valueAt_append (is js : List ι) (t : K) : valueAt lo hi label (is ++ js) t =
    (valueAt lo hi label is t).or (valueAt lo hi label js t) := by
  induction is with
  | nil => simp
  | cons i is ih =>
      rw [List.cons_append, valueAt_cons, valueAt_cons, ih]
      split <;> rfl

/-- A tiling has no value outside its segment. -/
theorem valueAt_eq_none {a b t : K} {items : List ι} (h : Tiles lo hi a items b)
    (ht : t < a ∨ b ≤ t) : valueAt lo hi label items t = none := by
  have hnone : items.find? (fun i => decide (lo i ≤ t ∧ t < hi i)) = none := by
    rw [List.find?_eq_none]
    intro i hi' hcovers
    obtain ⟨hleft, hright⟩ := Covers.mem_segment h hi' (of_decide_eq_true (p := _ ∧ _) hcovers)
    rcases ht with ht | ht
    · exact absurd hleft (not_le.2 ht)
    · exact absurd hright (not_lt.2 ht)
  rw [valueAt, hnone, Option.map_none]

theorem valueAt_isSome {a b t : K} {items : List ι} (h : Tiles lo hi a items b)
    (hat : a ≤ t) (htb : t < b) : (valueAt lo hi label items t).isSome = true := by
  obtain ⟨i, hi', hcovers⟩ := h.exists_covers hat htb
  rw [valueAt, Option.isSome_map, List.find?_isSome]
  exact ⟨i, hi', decide_eq_true hcovers⟩

/-- An interval appended to a tiling is painted over what the tiling draws. -/
theorem valueAt_concat {a m t : K} {items : List ι} {i : ι} (h : Tiles lo hi a items m)
    (hlo : lo i = m) : valueAt lo hi label (items ++ [i]) t =
      paint (valueAt lo hi label items) (lo i) (hi i) (label i) t := by
  rw [valueAt_append, valueAt_cons, valueAt_nil, paint]
  by_cases hcovers : lo i ≤ t ∧ t < hi i
  · rw [if_pos hcovers, valueAt_eq_none h (.inr (hlo ▸ hcovers.1)), if_pos hcovers, Option.none_or]
  · rw [if_neg hcovers, if_neg hcovers, Option.or_none]

theorem repaint_paint {f : K → Option V} {p q x y t : K} {v w : V} :
    repaint (paint f p q v) x y w t =
      if p ≤ t ∧ t < q then (if x ≤ t ∧ t < y then some w else some v) else repaint f x y w t := by
  unfold repaint paint
  split_ifs <;> rfl

/-- An interval that meets `[x, y)` is repainted by painting the overlap and what lies before and
behind it. -/
theorem paint_around {f : K → Option V} {p q x y : K} {v w : V} (hpy : p < y) (hxq : x < q)
    (hxy : x < y) (t : K) :
    paint (paint (paint (repaint f x y w) p x v) (max p x) (min q y) w) y q v t =
      repaint (paint f p q v) x y w t := by
  rw [repaint_paint]
  simp only [paint, max_le_iff, lt_min_iff]
  by_cases hcovers : p ≤ t ∧ t < q
  · obtain ⟨hpt, htq⟩ := hcovers
    rcases lt_or_ge t x with htx | htx
    · have hty := htx.trans hxy
      simp [hpt, htq, htx, hty, not_le.2 htx, not_le.2 hty]
    · rcases lt_or_ge t y with hty | hty
      · simp [hpt, htq, htx, hty, not_le.2 hty]
      · simp [hpt, htq, htx, hty, not_lt.2 hty]
  · have hbehind : ¬ (y ≤ t ∧ t < q) := fun h => hcovers ⟨hpy.le.trans h.1, h.2⟩
    have hbefore : ¬ (p ≤ t ∧ t < x) := fun h => hcovers ⟨h.1, h.2.trans hxq⟩
    have hinside : ¬ ((p ≤ t ∧ x ≤ t) ∧ t < q ∧ t < y) := fun h => hcovers ⟨h.1.1, h.2.1⟩
    rw [if_neg hbehind, if_neg hinside, if_neg hbefore, if_neg hcovers]

/-! ## Compact drawings -/

/-- `items` tile `[a, b)` with intervals that are not empty, no two neighbours carry one label, and
the function they draw is `f`. -/
structure Draws (lo hi : ι → K) (label : ι → V) (a : K) (items : List ι) (b : K)
    (f : K → Option V) : Prop where
  tiles : Tiles lo hi a items b
  positive : ∀ i ∈ items, lo i < hi i
  compact : items.IsChain fun i j => label i ≠ label j
  value : ∀ t, valueAt lo hi label items t = f t

namespace Draws

variable {a b m : K} {f : K → Option V} {items front back : List ι} {i j k : ι}

theorem nil (a : K) : Draws lo hi label a [] a fun _ => none :=
  ⟨rfl, by simp, .nil, fun _ => rfl⟩

theorem congr {g : K → Option V} (h : Draws lo hi label a items b f) (hfg : ∀ t, f t = g t) :
    Draws lo hi label a items b g :=
  ⟨h.tiles, h.positive, h.compact, fun t => (h.value t).trans (hfg t)⟩

/-- An interval with a new label begins behind the last one. -/
theorem push (h : Draws lo hi label a items m f) (hlo : lo i = m) (hpos : lo i < hi i)
    (hlabel : ∀ j ∈ items.getLast?, label j ≠ label i) :
    Draws lo hi label a (items ++ [i]) (hi i) (paint f (lo i) (hi i) (label i)) where
  tiles := h.tiles.append (tiles_singleton.2 ⟨hlo, hpos.le, rfl⟩)
  positive j hj := by
    rcases List.mem_append.1 hj with hj | hj
    · exact h.positive j hj
    · rw [List.mem_singleton.1 hj]
      exact hpos
  compact := by
    refine List.isChain_append.2 ⟨h.compact, .singleton i, fun j hj k hk => ?_⟩
    rw [List.head?_cons, Option.mem_some_iff] at hk
    exact hk ▸ hlabel j hj
  value t := by
    rw [valueAt_concat h.tiles hlo, paint, paint, h.value]

/-- The last interval grows by one of its label that begins behind it. -/
theorem grow (h : Draws lo hi label a (front ++ [j]) m f) (hlo : lo i = m) (hpos : lo i < hi i)
    (hlabel : label j = label i) (hklo : lo k = lo j) (hkhi : hi k = hi i)
    (hklabel : label k = label j) :
    Draws lo hi label a (front ++ [k]) (hi i) (paint f (lo i) (hi i) (label i)) := by
  obtain ⟨n, hfront, hlast⟩ := tiles_append.1 h.tiles
  obtain ⟨hjlo, hjle, hjhi⟩ := tiles_singleton.1 hlast
  have hkpos : lo k < hi k := by
    rw [hklo, hkhi]
    exact lt_of_le_of_lt (hjle.trans (hjhi.trans hlo.symm).le) hpos
  refine ⟨?_, ?_, ?_, ?_⟩
  · exact hfront.append (tiles_singleton.2 ⟨hklo.trans hjlo, hkpos.le, hkhi⟩)
  · intro other hother
    rcases List.mem_append.1 hother with hother | hother
    · exact h.positive other (List.mem_append_left _ hother)
    · rw [List.mem_singleton.1 hother]
      exact hkpos
  · obtain ⟨hchain, -, hborder⟩ := List.isChain_append.1 h.compact
    refine List.isChain_append.2 ⟨hchain, .singleton k, fun other hother last hk => ?_⟩
    rw [List.head?_cons, Option.mem_some_iff] at hk
    rw [← hk, hklabel]
    exact hborder other hother j (by rw [List.head?_cons]; rfl)
  · -- the grown interval covers the old one and the one behind it
    intro t
    have hold := h.value t
    rw [valueAt_concat hfront hjlo] at hold
    rw [valueAt_concat hfront (hklo.trans hjlo), hklabel, hklo, hkhi]
    unfold paint at hold ⊢
    rw [← hold, ← hlabel]
    have hborder : hi j = lo i := hjhi.trans hlo.symm
    have hji := hborder ▸ hjle
    by_cases hti : lo i ≤ t ∧ t < hi i
    · rw [if_pos hti, if_pos ⟨hji.trans hti.1, hti.2⟩]
    · rw [if_neg hti, hborder]
      congr 1
      refine propext (and_congr_right fun _ => ⟨fun ht => ?_, fun ht => ht.trans hpos⟩)
      exact not_le.1 fun hle => hti ⟨hle, ht⟩

/-- The border of two neighbours moves from `c` to `d`: between the two the label of the other side
is taken. -/
theorem move {l r l' r' : ι} {c d : K} (h : Draws lo hi label a (front ++ l :: r :: back) b f)
    (hc : hi l = c) (hleft : lo l < d) (hright : d < hi r)
    (hl : lo l' = lo l ∧ hi l' = d ∧ label l' = label l)
    (hr : lo r' = d ∧ hi r' = hi r ∧ label r' = label r) :
    lo l < c ∧ c < hi r ∧ (∀ t, lo l ≤ t → t < c → f t = some (label l)) ∧
      (∀ t, c ≤ t → t < hi r → f t = some (label r)) ∧
      Draws lo hi label a (front ++ l' :: r' :: back) b
        (paint (paint f d c (label r)) c d (label l)) := by
  obtain ⟨n, hfront, hrest⟩ := tiles_append.1 h.tiles
  obtain ⟨hllo, -, hrlo, -, hback⟩ := id hrest
  have hlpos : lo l < hi l := h.positive l (by simp)
  have hrpos : lo r < hi r := h.positive r (by simp)
  subst hc
  -- what the two intervals draw before the move
  have hbefore : ∀ t, n ≤ t → valueAt lo hi label (front ++ l :: r :: back) t =
      if t < hi l then some (label l) else if t < hi r then some (label r)
        else valueAt lo hi label back t := by
    intro t ht
    rw [valueAt_append, valueAt_eq_none hfront (.inr ht), Option.none_or, valueAt_cons,
      valueAt_cons, hllo, hrlo]
    by_cases htl : t < hi l
    · rw [if_pos ⟨ht, htl⟩, if_pos htl]
    · simp only [ht, htl, not_lt.1 htl, true_and, if_false, and_false]
  have hafter : ∀ t, n ≤ t → valueAt lo hi label (front ++ l' :: r' :: back) t =
      if t < d then some (label l) else if t < hi r then some (label r)
        else valueAt lo hi label back t := by
    intro t ht
    rw [valueAt_append, valueAt_eq_none hfront (.inr ht), Option.none_or, valueAt_cons,
      valueAt_cons, hl.1, hl.2.1, hl.2.2, hr.1, hr.2.1, hr.2.2, hllo]
    by_cases htl : t < d
    · rw [if_pos ⟨ht, htl⟩, if_pos htl]
    · simp only [ht, htl, not_lt.1 htl, true_and, if_false, and_false]
  have htail : Tiles lo hi n (l' :: r' :: back) b := by
    refine ⟨hl.1.trans hllo, ?_, hr.1.trans hl.2.1.symm, ?_, ?_⟩
    · rw [hl.1, hl.2.1]
      exact hleft.le
    · rw [hr.1, hr.2.1]
      exact hright.le
    · rw [hr.2.1]
      exact hback
  refine ⟨hlpos, hrlo ▸ hrpos, fun t hlt htc => ?_, fun t hct htr => ?_, hfront.append htail, ?_, ?_,
    fun t => ?_⟩
  · rw [← h.value, hbefore t (hllo ▸ hlt), if_pos htc]
  · rw [← h.value, hbefore t (hllo ▸ hlpos.le.trans hct), if_neg (not_lt.2 hct), if_pos htr]
  · intro other hother
    simp only [List.mem_append, List.mem_cons] at hother
    rcases hother with hother | rfl | rfl | hother
    · exact h.positive other (by simp [hother])
    · rw [hl.1, hl.2.1]
      exact hleft
    · rw [hr.1, hr.2.1]
      exact hright
    · exact h.positive other (by simp [hother])
  · -- the labels are those of before
    have hlabels : (front ++ l' :: r' :: back).map label = (front ++ l :: r :: back).map label := by
      simp [hl.2.2, hr.2.2]
    have hchain := h.compact
    rw [← List.isChain_map (R := (· ≠ ·)) label] at hchain ⊢
    rwa [hlabels]
  · unfold paint
    rcases lt_or_ge t n with ht | ht
    · have hlt : t < hi l := ht.trans (hllo ▸ hlpos)
      have htd : t < d := ht.trans (hllo ▸ hleft)
      rw [if_neg fun h => not_le.2 hlt h.1, if_neg fun h => not_le.2 htd h.1, ← h.value,
        valueAt_append, valueAt_append, valueAt_eq_none htail (.inl ht),
        valueAt_eq_none hrest (.inl ht)]
    · rw [hafter t ht, ← h.value, hbefore t ht]
      rcases lt_or_ge t d with htd | htd <;> rcases lt_or_ge t (hi l) with htc | htc
      · rw [if_pos htd, if_neg fun h => not_le.2 htc h.1, if_neg fun h => not_le.2 htd h.1,
          if_pos htc]
      · rw [if_pos htd, if_pos ⟨htc, htd⟩]
      · have htr : t < hi r := htc.trans (hrlo ▸ hrpos)
        rw [if_neg (not_lt.2 htd), if_pos htr, if_neg fun h => not_le.2 htc h.1, if_pos ⟨htd, htc⟩]
      · have hpainted : ¬ (hi l ≤ t ∧ t < d) := fun h => not_lt.2 htd h.2
        have hcleared : ¬ (d ≤ t ∧ t < hi l) := fun h => not_lt.2 htc h.2
        rw [if_neg (not_lt.2 htd), if_neg hpainted, if_neg hcleared, if_neg (not_lt.2 htc)]

end Draws

end Piecewise
end Superi

import Mathlib
import Superi.Lib.Tiling

/-!
# Polyline — paths and what is seen along them

A list of linear pieces that tiles a segment and joins at every seam draws a continuous function.
When it takes no value twice, all its slopes have one sign, and the function is strictly monotone.

At some instants a path *shows* a value.  A change gives the value `v` to a set of instants, the
rest that is painted, and leaves the others as they are.  Seen along the path the change is a cut at
the instant `t` when it paints the instants from `t` up to the next one that shows another value:
that is so exactly when the painted instants are one stretch from `t` on, with another value behind
it.
-/

namespace Superi
namespace Polyline

open Tiling

variable {ι K : Type*} [Field K] [LinearOrder K] {lo hi start slope : ι → K}

/-- The value of a piece, continued to the whole line. -/
def law (lo start slope : ι → K) (i : ι) (x : K) : K := start i + slope i * (x - lo i)

/-- The pieces tile `[a, b)`, none is empty, and each ends where the next one starts. -/
structure Joined (lo hi start slope : ι → K) (a : K) (items : List ι) (b : K) : Prop where
  tiles : Tiles lo hi a items b
  positive : ∀ i ∈ items, lo i < hi i
  seams : items.IsChain fun i j => law lo start slope i (hi i) = start j

/-- The drawn function takes the value `y` at `x`. -/
def On (lo hi start slope : ι → K) (items : List ι) (x y : K) : Prop :=
  ∃ i ∈ items, Covers lo hi x i ∧ law lo start slope i x = y

variable {a b x x' y y' : K} {items : List ι} {i j : ι}

theorem on_cons {rest : List ι} : On lo hi start slope (i :: rest) x y ↔
    (Covers lo hi x i ∧ law lo start slope i x = y) ∨ On lo hi start slope rest x y := by
  unfold On
  simp [List.mem_cons, or_and_right, exists_or]

namespace Joined

theorem tail {rest : List ι} (h : Joined lo hi start slope a (i :: rest) b) :
    Joined lo hi start slope (hi i) rest b where
  tiles := h.tiles.2.2
  positive j hj := h.positive j (List.mem_cons_of_mem _ hj)
  seams := h.seams.tail

theorem lo_eq {rest : List ι} (h : Joined lo hi start slope a (i :: rest) b) : lo i = a := h.tiles.1

theorem le_of_on (h : Joined lo hi start slope a items b) (hx : On lo hi start slope items x y) :
    a ≤ x := by
  obtain ⟨i, hi', hcovers, -⟩ := hx
  exact (hcovers.mem_segment h.tiles hi').1

/-- At one instant the function takes one value. -/
theorem on_unique (h : Joined lo hi start slope a items b) (hy : On lo hi start slope items x y)
    (hy' : On lo hi start slope items x y') : y = y' := by
  obtain ⟨i, hmem, hcovers, rfl⟩ := hy
  obtain ⟨j, hmem', hcovers', rfl⟩ := hy'
  rw [h.tiles.covers_unique hmem hmem' hcovers hcovers']

/-- Upside down a joined function is joined. -/
theorem neg (h : Joined lo hi start slope a items b) :
    Joined lo hi (fun i => -start i) (fun i => -slope i) a items b where
  tiles := h.tiles
  positive := h.positive
  seams := h.seams.imp fun i j hseam => by
    rw [← hseam, law, law]
    ring

variable [IsStrictOrderedRing K]

theorem law_lt_iff (hslope : 0 < slope i) :
    law lo start slope i x < law lo start slope i x' ↔ x < x' := by
  unfold law
  rw [add_lt_add_iff_left, mul_lt_mul_iff_of_pos_left hslope, sub_lt_sub_iff_right]

/-- A function that rises on every piece stays above its first value. -/
theorem start_le_of_on (h : Joined lo hi start slope a items b)
    (hrising : ∀ i ∈ items, 0 < slope i) (hx : On lo hi start slope items x y) :
    ∀ i ∈ items.head?, start i ≤ y := by
  induction items generalizing a with
  | nil => simp
  | cons i rest ih =>
      intro first hfirst
      obtain rfl : i = first := by simpa using hfirst
      rcases on_cons.1 hx with ⟨hcovers, rfl⟩ | hrest
      · have hle : 0 ≤ slope i * (x - lo i) :=
          mul_nonneg (hrising i List.mem_cons_self).le (sub_nonneg.2 hcovers.1)
        unfold law
        linarith
      · cases rest with
        | nil => simp [On] at hrest
        | cons j rest =>
            have hnext : start j ≤ y := ih h.tail
              (fun k hk => hrising k (List.mem_cons_of_mem _ hk)) hrest j rfl
            have hseam := (List.isChain_cons_cons.1 h.seams).1
            have hle : 0 ≤ slope i * (hi i - lo i) :=
              mul_nonneg (hrising i List.mem_cons_self).le
                (sub_nonneg.2 (h.positive i List.mem_cons_self).le)
            unfold law at hseam
            linarith

/-- A function that rises on every piece rises. -/
theorem lt_of_rising (h : Joined lo hi start slope a items b) (hrising : ∀ i ∈ items, 0 < slope i)
    (hx : On lo hi start slope items x y) (hx' : On lo hi start slope items x' y') (hlt : x < x') :
    y < y' := by
  induction items generalizing a with
  | nil => simp [On] at hx
  | cons i rest ih =>
      have hrest : ∀ k ∈ rest, 0 < slope k := fun k hk => hrising k (List.mem_cons_of_mem _ hk)
      rcases on_cons.1 hx with ⟨hcovers, rfl⟩ | hin
      · rcases on_cons.1 hx' with ⟨hcovers', rfl⟩ | hin'
        · exact (law_lt_iff (hrising i List.mem_cons_self)).2 hlt
        · cases rest with
          | nil => simp [On] at hin'
          | cons j rest =>
              have hseam := (List.isChain_cons_cons.1 h.seams).1
              have hnext : start j ≤ y' := h.tail.start_le_of_on hrest hin' j rfl
              have hend : law lo start slope i x < law lo start slope i (hi i) :=
                (law_lt_iff (hrising i List.mem_cons_self)).2 hcovers.2
              exact (hend.trans_eq hseam).trans_le hnext
      · rcases on_cons.1 hx' with ⟨hcovers', -⟩ | hin'
        · exact absurd (h.tail.le_of_on hin) (not_le.2 (hlt.trans hcovers'.2))
        · exact ih h.tail hrest hin hin'

theorem lt_of_falling (h : Joined lo hi start slope a items b)
    (hfalling : ∀ i ∈ items, slope i < 0) (hx : On lo hi start slope items x y)
    (hx' : On lo hi start slope items x' y') (hlt : x < x') : y' < y := by
  have hneg : ∀ {u v : K}, On lo hi start slope items u v →
      On lo hi (fun i => -start i) (fun i => -slope i) items u (-v) := by
    rintro u v ⟨i, hmem, hcovers, rfl⟩
    refine ⟨i, hmem, hcovers, ?_⟩
    unfold law
    ring
  exact neg_lt_neg_iff.1 (h.neg.lt_of_rising (fun i hmem => neg_pos.2 (hfalling i hmem))
    (hneg hx) (hneg hx') hlt)

theorem le_iff_of_rising (h : Joined lo hi start slope a items b)
    (hrising : ∀ i ∈ items, 0 < slope i) (hx : On lo hi start slope items x y)
    (hx' : On lo hi start slope items x' y') : x ≤ x' ↔ y ≤ y' := by
  rcases lt_trichotomy x x' with hlt | rfl | hlt
  · exact iff_of_true hlt.le (h.lt_of_rising hrising hx hx' hlt).le
  · exact iff_of_true le_rfl (h.on_unique hx hx').le
  · exact iff_of_false (not_le.2 hlt) (not_le.2 (h.lt_of_rising hrising hx' hx hlt))

theorem le_iff_of_falling (h : Joined lo hi start slope a items b)
    (hfalling : ∀ i ∈ items, slope i < 0) (hx : On lo hi start slope items x y)
    (hx' : On lo hi start slope items x' y') : x ≤ x' ↔ y' ≤ y := by
  rcases lt_trichotomy x x' with hlt | rfl | hlt
  · exact iff_of_true hlt.le (h.lt_of_falling hfalling hx hx' hlt).le
  · exact iff_of_true le_rfl (h.on_unique hx hx').ge
  · exact iff_of_false (not_le.2 hlt) (not_le.2 (h.lt_of_falling hfalling hx' hx hlt))

/-- A function that takes no value twice does not turn at a seam. -/
theorem not_turn {rest : List ι} (h : Joined lo hi start slope a (i :: j :: rest) b)
    (hinj : ∀ u v w, On lo hi start slope (i :: j :: rest) u w →
      On lo hi start slope (i :: j :: rest) v w → u = v)
    (hi' : 0 < slope i) (hj : slope j < 0) : False := by
  have hipos := h.positive i List.mem_cons_self
  have hjpos := h.positive j (List.mem_cons_of_mem _ List.mem_cons_self)
  have hseam := (List.isChain_cons_cons.1 h.seams).1
  have hborder : lo j = hi i := h.tail.lo_eq
  -- two steps away from the seam, one to each side, over which the value falls by the same
  obtain ⟨ε, hεpos, hεi, hεj⟩ : ∃ ε, 0 < ε ∧ ε * (-slope j) < hi i - lo i ∧
      ε * slope i < hi j - lo j := by
    refine ⟨min ((hi i - lo i) / (2 * (-slope j))) ((hi j - lo j) / (2 * slope i)), ?_, ?_, ?_⟩
    · exact lt_min (div_pos (sub_pos.2 hipos) (by linarith)) (div_pos (sub_pos.2 hjpos) (by linarith))
    · have hle := min_le_left ((hi i - lo i) / (2 * (-slope j))) ((hi j - lo j) / (2 * slope i))
      have hmul := mul_le_mul_of_nonneg_right hle (neg_pos.2 hj).le
      have hhalf : (hi i - lo i) / (2 * (-slope j)) * (-slope j) = (hi i - lo i) / 2 := by
        have hne : slope j ≠ 0 := hj.ne
        field_simp
      linarith
    · have hle := min_le_right ((hi i - lo i) / (2 * (-slope j))) ((hi j - lo j) / (2 * slope i))
      have hmul := mul_le_mul_of_nonneg_right hle hi'.le
      have hhalf : (hi j - lo j) / (2 * slope i) * slope i = (hi j - lo j) / 2 := by
        field_simp
      linarith
  have hbefore : 0 < ε * (-slope j) := mul_pos hεpos (neg_pos.2 hj)
  have hbehind : 0 < ε * slope i := mul_pos hεpos hi'
  have heq := hinj (hi i - ε * (-slope j)) (lo j + ε * slope i)
    (law lo start slope j (lo j + ε * slope i))
    ⟨i, List.mem_cons_self, ⟨by linarith, by linarith⟩, by
      rw [law] at hseam
      rw [law, law, ← hseam]
      ring⟩
    ⟨j, List.mem_cons_of_mem _ List.mem_cons_self, ⟨by linarith, by linarith⟩, rfl⟩
  linarith

/-- A function that takes no value twice has slopes of one sign. -/
theorem one_sign (h : Joined lo hi start slope a items b)
    (hinj : ∀ u v w, On lo hi start slope items u w → On lo hi start slope items v w → u = v) :
    (∀ i ∈ items, 0 < slope i) ∨ ∀ i ∈ items, slope i < 0 := by
  induction items generalizing a with
  | nil => simp
  | cons i rest ih =>
      have hipos := h.positive i List.mem_cons_self
      have hne : slope i ≠ 0 := by
        intro hzero
        have hmid : lo i < (lo i + hi i) / 2 ∧ (lo i + hi i) / 2 < hi i := by
          constructor <;> linarith
        have heq := hinj (lo i) ((lo i + hi i) / 2) (start i)
          ⟨i, List.mem_cons_self, ⟨le_rfl, hipos⟩, by rw [law, hzero]; ring⟩
          ⟨i, List.mem_cons_self, ⟨hmid.1.le, hmid.2⟩, by rw [law, hzero]; ring⟩
        exact absurd heq hmid.1.ne
      have htail := ih h.tail fun u v w hu hv =>
        hinj u v w (on_cons.2 (.inr hu)) (on_cons.2 (.inr hv))
      cases rest with
      | nil =>
          rcases lt_or_gt_of_ne hne with hneg | hpos
          · exact .inr (by simpa using hneg)
          · exact .inl (by simpa using hpos)
      | cons j rest =>
          rcases lt_or_gt_of_ne hne with hneg | hpos
          · rcases htail with hrising | hfalling
            · -- upside down this is a turn
              have hturn := h.neg.not_turn (fun u v w hu hv => ?_) (neg_pos.2 hneg)
                (neg_neg_of_pos (hrising j List.mem_cons_self))
              · exact hturn.elim
              · refine hinj u v (-w) ?_ ?_
                · obtain ⟨k, hk, hcovers, rfl⟩ := hu
                  exact ⟨k, hk, hcovers, by unfold law; ring⟩
                · obtain ⟨k, hk, hcovers, rfl⟩ := hv
                  exact ⟨k, hk, hcovers, by unfold law; ring⟩
            · exact .inr (List.forall_mem_cons.2 ⟨hneg, hfalling⟩)
          · rcases htail with hrising | hfalling
            · exact .inl (List.forall_mem_cons.2 ⟨hpos, hrising⟩)
            · exact (h.not_turn hinj hpos (hfalling j List.mem_cons_self)).elim

end Joined

end Polyline

namespace Playback

variable {T V K : Type*}

section Cut

variable [Preorder T] {before after : T → Option V} {t r u : T} {a v w : V} {painted : T → Prop}

/-- From `t` up to the next instant that shows another value than `t`. -/
def UpToNext (shown : T → Option V) (t r : T) : Prop :=
  t ≤ r ∧ ∀ u w, t ≤ u → u ≤ r → shown u = some w → shown t = some w

/-- From `t` up to the next visible change every instant shows `v`, and nothing else has changed. -/
structure CutAt (before after : T → Option V) (t : T) (v : V) : Prop where
  chosen : ∀ r, (before r).isSome = true → UpToNext before t r → after r = some v
  kept : ∀ r, ((before r).isSome = true → ¬ UpToNext before t r) → after r = before r

/-- The painted instants are one stretch that begins at `t`, and behind it another value shows. -/
structure OneStretch (before : T → Option V) (painted : T → Prop) (t : T) : Prop where
  onward : ∀ r, painted r → t ≤ r
  unbroken : ∀ r u, painted r → t ≤ u → u ≤ r → (before u).isSome = true → painted u
  leaves : ∀ r, t ≤ r → (before r).isSome = true → ¬ painted r →
    ∃ u w, t ≤ u ∧ u ≤ r ∧ before u = some w ∧ before t ≠ some w

theorem UpToNext.earlier (h : UpToNext before t r) (ht : t ≤ u) (hu : u ≤ r) : UpToNext before t u :=
  ⟨ht, fun x w hx hxu => h.2 x w hx (hxu.trans hu)⟩

/-- A change of the instants that show `a` to `v` is a cut exactly when it changes nothing, or
paints one stretch. -/
theorem cutAt_iff (hpainted : ∀ r, painted r → before r = some a) (ht : before t = some a)
    (hafter : ∀ r, (painted r → after r = some v) ∧ (¬ painted r → after r = before r)) :
    CutAt before after t v ↔ a = v ∨ OneStretch before painted t := by
  constructor
  · intro h
    by_cases hav : a = v
    · exact .inl hav
    -- what is painted shows another value than before, so it lies before the next change
    have hupto : ∀ r, painted r → UpToNext before t r := by
      intro r hr
      by_contra hnot
      have hkept := h.kept r fun _ => hnot
      rw [(hafter r).1 hr, hpainted r hr] at hkept
      exact hav (Option.some.inj hkept).symm
    -- and what lies before the next change is painted
    have hback : ∀ u, (before u).isSome = true → UpToNext before t u → painted u := by
      intro u hu hnext
      by_contra hnot
      obtain ⟨w, hw⟩ := Option.isSome_iff_exists.1 hu
      have hchosen : after u = some v := h.chosen u hu hnext
      rw [(hafter u).2 hnot, hw, ← hnext.2 u w hnext.1 le_rfl hw, ht] at hchosen
      exact hav (Option.some.inj hchosen)
    refine .inr ⟨fun r hr => (hupto r hr).1, fun r u hr htu hur hu => ?_, fun r htr hr hnot => ?_⟩
    · exact hback u hu ((hupto r hr).earlier htu hur)
    · by_contra hnone
      push Not at hnone
      exact hnot (hback r hr ⟨htr, fun u w htu hur hw => hnone u w htu hur hw⟩)
  · rintro (rfl | h)
    · -- what is painted already showed the value
      have hsame : ∀ r, after r = before r := by
        intro r
        by_cases hr : painted r
        · rw [(hafter r).1 hr, hpainted r hr]
        · exact (hafter r).2 hr
      refine ⟨fun r hr hnext => ?_, fun r _ => hsame r⟩
      obtain ⟨w, hw⟩ := Option.isSome_iff_exists.1 hr
      rw [hsame, hw, ← hnext.2 r w hnext.1 le_rfl hw, ht]
    · refine ⟨fun r hr hnext => ?_, fun r hr => ?_⟩
      · refine (hafter r).1 (by_contra fun hnot => ?_)
        obtain ⟨u, w, htu, hur, hu, hne⟩ := h.leaves r hnext.1 hr hnot
        exact hne (hnext.2 u w htu hur hu)
      · refine (hafter r).2 fun hpaint => ?_
        refine hr (by rw [hpainted r hpaint]; rfl) ⟨h.onward r hpaint, fun u w htu hur hu => ?_⟩
        have hagain := hpainted u (h.unbroken r u hpaint htu hur (by rw [hu]; rfl))
        rw [ht, ← hagain, hu]

end Cut

/-! ## Paths that play in one direction -/

section Paths

variable [Preorder T] [Preorder K] {path : T → Option K} {before : T → Option V} {t : T} {x y : K}

/-- Later instants lie further on. -/
def Forward (path : T → Option K) : Prop :=
  ∀ t u x y, path t = some x → path u = some y → (t ≤ u ↔ x ≤ y)

/-- Later instants lie further back. -/
def Backward (path : T → Option K) : Prop :=
  ∀ t u x y, path t = some x → path u = some y → (t ≤ u ↔ y ≤ x)

end Paths

end Playback
end Superi

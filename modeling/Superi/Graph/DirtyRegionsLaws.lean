import Mathlib
import Superi.Graph.DirtyRegions
import Superi.Lib.Runs

/-!
# DirtyRegionsLaws — region sets are a canonical set algebra

A normalized list of rectangles is read off a canonical run of strips, and each strip carries a
canonical run of intervals.  Both runs are determined by the pixels they cover, so the rectangles
are: whatever operations built two finite sets, they are equal once they cover the same pixels.
-/

namespace Superi
namespace Graph

open Core Piecewise

/-! ## Intervals -/

/-- The row `y` lies in one of the intervals. -/
def Meets (intervals : List (Int × Int)) (y : Int) : Prop :=
  ∃ i ∈ intervals, i.1 ≤ y ∧ y < i.2

/-- Intervals in order, with gaps between them. -/
abbrev Spaced (intervals : List (Int × Int)) : Prop :=
  Runs.Canonical Prod.fst Prod.snd (fun _ => ()) intervals

theorem meets_cons {i : Int × Int} {rest : List (Int × Int)} {y : Int} :
    Meets (i :: rest) y ↔ (i.1 ≤ y ∧ y < i.2) ∨ Meets rest y := by
  simp only [Meets, List.mem_cons, or_and_right, exists_or, exists_eq_left]

namespace Spaced

variable {intervals intervals' : List (Int × Int)} {i : Int × Int}

theorem valueAt_eq_some (h : Spaced intervals) {y : Int} :
    valueAt Prod.fst Prod.snd (fun _ => ()) intervals y = some () ↔ Meets intervals y := by
  constructor
  · intro hvalue
    obtain ⟨j, hj, hcovers, -⟩ := Runs.exists_of_valueAt hvalue
    exact ⟨j, hj, hcovers⟩
  · rintro ⟨j, hj, hcovers⟩
    exact h.valueAt_eq hj hcovers

/-- Spaced intervals are determined by the rows they meet. -/
theorem unique (h : Spaced intervals) (h' : Spaced intervals')
    (hmeets : ∀ y, Meets intervals y ↔ Meets intervals' y) : intervals = intervals' := by
  apply Runs.Canonical.unique (fun i j hlo hhi _ => Prod.ext hlo hhi) h h'
  intro y
  apply Option.ext
  rintro ⟨⟩
  rw [h.valueAt_eq_some, h'.valueAt_eq_some, hmeets]

/-- Merging an interval that starts behind the start of the last one adds its rows. -/
theorem merge (h : Spaced intervals) (hpos : i.1 < i.2)
    (hlast : ∀ current ∈ intervals.getLast?, current.1 ≤ i.1) :
    Spaced (mergeInterval intervals i) ∧
      (∀ y, Meets (mergeInterval intervals i) y ↔ Meets intervals y ∨ (i.1 ≤ y ∧ y < i.2)) ∧
      ∀ current ∈ (mergeInterval intervals i).getLast?, current.1 ≤ i.1 := by
  have hmeets : ∀ merged : List (Int × Int), Spaced merged →
      (∀ y, valueAt Prod.fst Prod.snd (fun _ => ()) merged y =
        paint (valueAt Prod.fst Prod.snd (fun _ => ()) intervals) i.1 i.2 () y) →
      ∀ y, Meets merged y ↔ Meets intervals y ∨ (i.1 ≤ y ∧ y < i.2) := by
    intro merged hspaced hpaint y
    rw [← hspaced.valueAt_eq_some, ← h.valueAt_eq_some, hpaint, paint]
    by_cases hcovers : i.1 ≤ y ∧ y < i.2 <;> simp [hcovers]
  rcases List.eq_nil_or_concat' intervals with rfl | ⟨front, current, rfl⟩
  · obtain ⟨hspaced, hpaint⟩ := Runs.Canonical.push h hpos (by simp)
    refine ⟨hspaced, hmeets _ hspaced hpaint, ?_⟩
    simp [mergeInterval]
  · have hstart : current.1 ≤ i.1 := hlast current List.getLast?_concat
    rw [mergeInterval, List.getLast?_concat]
    dsimp only
    split
    · -- the interval starts in the last one or where it ends
      rename_i htouch
      obtain ⟨hspaced, hpaint⟩ := Runs.Canonical.grow (i := i)
        (k := (current.1, max current.2 i.2)) h hstart htouch rfl rfl rfl rfl
      rw [List.dropLast_concat]
      refine ⟨hspaced, hmeets _ hspaced hpaint, ?_⟩
      simpa using hstart
    · rename_i hgap
      have hgap : current.2 < i.1 := not_le.1 hgap
      obtain ⟨hspaced, hpaint⟩ := Runs.Canonical.push (i := i) h hpos (by
        intro j hj
        rw [List.getLast?_concat, Option.mem_some_iff] at hj
        exact hj ▸ ⟨hgap.le, fun htouch => absurd htouch hgap.ne⟩)
      refine ⟨hspaced, hmeets _ hspaced hpaint, ?_⟩
      simp

/-- Merging a whole ordered list of intervals. -/
theorem mergeAll {rest : List (Int × Int)} (h : Spaced intervals)
    (hsorted : rest.Pairwise fun a b => a.1 ≤ b.1) (hpos : ∀ i ∈ rest, i.1 < i.2)
    (hlast : ∀ current ∈ intervals.getLast?, ∀ i ∈ rest, current.1 ≤ i.1) :
    Spaced (rest.foldl mergeInterval intervals) ∧
      ∀ y, Meets (rest.foldl mergeInterval intervals) y ↔ Meets intervals y ∨ Meets rest y := by
  induction rest generalizing intervals with
  | nil => exact ⟨h, fun y => by simp [Meets]⟩
  | cons i rest ih =>
      obtain ⟨hspaced, hmeets, hstart⟩ := h.merge (hpos i List.mem_cons_self) fun current hcurrent =>
        hlast current hcurrent i List.mem_cons_self
      obtain ⟨hspaced', hmeets'⟩ := ih hspaced hsorted.of_cons
        (fun j hj => hpos j (List.mem_cons_of_mem _ hj)) fun current hcurrent j hj =>
          (hstart current hcurrent).trans (List.rel_of_pairwise_cons hsorted hj)
      refine ⟨hspaced', fun y => ?_⟩
      rw [List.foldl_cons, hmeets', hmeets, meets_cons, or_assoc]

end Spaced

/-! ## Slabs -/

instance : Std.Total pairLe := ⟨fun a b => by unfold pairLe; omega⟩

instance : IsTrans (Int × Int) pairLe := ⟨fun a b c => by unfold pairLe; omega⟩

namespace PixelBounds

/-- The pixels of the bounds. -/
def pixels (bounds : PixelBounds) : Set (Int × Int) :=
  {p | bounds.contains p.1 p.2 = true}

theorem contains_iff {bounds : PixelBounds} {x y : Int} : bounds.contains x y = true ↔
    (bounds.minX ≤ x ∧ x < bounds.maxX) ∧ bounds.minY ≤ y ∧ y < bounds.maxY := by
  simp only [contains, Bool.and_eq_true, decide_eq_true_eq, and_assoc]

theorem mem_pixels {bounds : PixelBounds} {p : Int × Int} : p ∈ bounds.pixels ↔
    (bounds.minX ≤ p.1 ∧ p.1 < bounds.maxX) ∧ bounds.minY ≤ p.2 ∧ p.2 < bounds.maxY :=
  contains_iff

theorem isEmpty_iff {bounds : PixelBounds} :
    bounds.isEmpty = true ↔ bounds.minX = bounds.maxX ∨ bounds.minY = bounds.maxY := by
  simp [isEmpty]

theorem not_isEmpty_iff {bounds : PixelBounds} :
    bounds.isEmpty = false ↔ bounds.minX < bounds.maxX ∧ bounds.minY < bounds.maxY := by
  have hx := bounds.horizontal
  have hy := bounds.vertical
  rw [← Bool.not_eq_true, isEmpty_iff]
  omega

/-- Bounds without an extent have no pixels. -/
theorem pixels_eq_empty {bounds : PixelBounds} (h : bounds.isEmpty = true) :
    bounds.pixels = ∅ := by
  rw [Set.eq_empty_iff_forall_notMem]
  intro p hp
  rw [mem_pixels] at hp
  rw [isEmpty_iff] at h
  omega

/-- The overlap has the pixels of both, and there is none when they have no pixel in common. -/
theorem mem_intersection {bounds other : PixelBounds} {p : Int × Int} :
    (∃ overlap ∈ bounds.intersection other, p ∈ overlap.pixels) ↔
      p ∈ bounds.pixels ∧ p ∈ other.pixels := by
  unfold intersection
  dsimp only
  split
  · simp only [Option.mem_some_iff, exists_eq_left', mem_pixels]
    omega
  · rename_i h
    simp only [Option.mem_def, reduceCtorEq, false_and, exists_false, mem_pixels, false_iff]
    omega

end PixelBounds

/-- The intervals over one slab meet the rows of the bounds that reach over it. -/
theorem mergedIntervals_spec {regions : List PixelBounds}
    (hregions : ∀ region ∈ regions, region.isEmpty = false) (edges : Int × Int) :
    Spaced (mergedIntervals regions edges) ∧
      ∀ y, Meets (mergedIntervals regions edges) y ↔
        ∃ region ∈ regions, (region.minX ≤ edges.1 ∧ edges.2 ≤ region.maxX) ∧
          region.minY ≤ y ∧ y < region.maxY := by
  have hmem : ∀ {i}, i ∈ ((activeRegions regions edges).map
      fun region => (region.minY, region.maxY)).insertionSort pairLe ↔
      ∃ region ∈ regions, (region.minX ≤ edges.1 ∧ edges.2 ≤ region.maxX) ∧
        (region.minY, region.maxY) = i := by
    intro i
    simp only [List.mem_insertionSort, List.mem_map, activeRegions, List.mem_filter,
      Bool.and_eq_true, decide_eq_true_eq, and_assoc]
  have hsorted := List.pairwise_insertionSort pairLe
    ((activeRegions regions edges).map fun region => (region.minY, region.maxY))
  have hnone : Spaced [] := Runs.Canonical.nil
  obtain ⟨hspaced, hmeets⟩ := hnone.mergeAll
    (hsorted.imp fun {a b} hle => show a.1 ≤ b.1 by unfold pairLe at hle; omega)
    (fun i hi => by
      obtain ⟨region, hregion, -, rfl⟩ := hmem.1 hi
      exact (PixelBounds.not_isEmpty_iff.1 (hregions region hregion)).2)
    (by simp)
  refine ⟨hspaced, fun y => ?_⟩
  rw [mergedIntervals, hmeets]
  simp only [Meets, List.not_mem_nil, false_and, exists_false, false_or, hmem]
  constructor
  · rintro ⟨-, ⟨region, hregion, hactive, rfl⟩, hy⟩
    exact ⟨region, hregion, hactive, hy⟩
  · rintro ⟨region, hregion, hactive, hy⟩
    exact ⟨_, ⟨region, hregion, hactive, rfl⟩, hy⟩

/-! ## Strips -/

/-- The intervals over the column `x`. -/
abbrev columnAt (strips : List RegionStrip) (x : Int) : Option (List (Int × Int)) :=
  valueAt RegionStrip.minX RegionStrip.maxX RegionStrip.yIntervals strips x

/-- The pixel `(x, y)` lies in one of the strips. -/
def Covered (strips : List RegionStrip) (x y : Int) : Prop :=
  ∃ intervals, columnAt strips x = some intervals ∧ Meets intervals y

/-- Strips in order; two that touch differ, and each carries spaced intervals. -/
structure Stripped (strips : List RegionStrip) : Prop where
  runs : Runs.Canonical RegionStrip.minX RegionStrip.maxX RegionStrip.yIntervals strips
  spaced : ∀ strip ∈ strips, Spaced strip.yIntervals
  dirty : ∀ strip ∈ strips, strip.yIntervals ≠ []

namespace Stripped

variable {strips strips' : List RegionStrip} {regions : List PixelBounds} {edges : Int × Int}

theorem nil : Stripped [] := ⟨.nil, by simp, by simp⟩

theorem covered_iff (h : Stripped strips) {x y : Int} : Covered strips x y ↔
    ∃ strip ∈ strips, (strip.minX ≤ x ∧ x < strip.maxX) ∧ Meets strip.yIntervals y := by
  constructor
  · rintro ⟨intervals, hcolumn, hmeets⟩
    obtain ⟨strip, hstrip, hcovers, rfl⟩ := Runs.exists_of_valueAt hcolumn
    exact ⟨strip, hstrip, hcovers, hmeets⟩
  · rintro ⟨strip, hstrip, hcovers, hmeets⟩
    exact ⟨strip.yIntervals, h.runs.valueAt_eq hstrip hcovers, hmeets⟩

/-- The intervals over a column are determined by the pixels covered in it. -/
theorem column_unique (h : Stripped strips) (h' : Stripped strips')
    (hcovered : ∀ x y, Covered strips x y ↔ Covered strips' x y) (x : Int)
    {intervals : List (Int × Int)} (hcolumn : columnAt strips x = some intervals) :
    columnAt strips' x = some intervals := by
  obtain ⟨strip, hstrip, -, rfl⟩ := Runs.exists_of_valueAt hcolumn
  have hspaced := h.spaced strip hstrip
  -- the column is not empty, so the other strips have one there too
  obtain ⟨i, hi⟩ := List.exists_mem_of_ne_nil _ (h.dirty strip hstrip)
  have hfirst : Covered strips x i.1 :=
    ⟨_, hcolumn, i, hi, le_rfl, hspaced.positive i hi⟩
  obtain ⟨intervals', hcolumn', -⟩ := (hcovered x i.1).1 hfirst
  obtain ⟨strip', hstrip', -, rfl⟩ := Runs.exists_of_valueAt hcolumn'
  rw [hcolumn', hspaced.unique (h'.spaced strip' hstrip')]
  intro y
  have hrow := hcovered x y
  simpa only [Covered, hcolumn, hcolumn', Option.some.injEq, exists_eq_left'] using hrow

/-- Strips that cover the same pixels are equal. -/
theorem unique (h : Stripped strips) (h' : Stripped strips')
    (hcovered : ∀ x y, Covered strips x y ↔ Covered strips' x y) : strips = strips' := by
  apply Runs.Canonical.unique _ h.runs h'.runs
  · intro x
    apply Option.ext
    intro intervals
    exact ⟨h.column_unique h' hcovered x,
      h'.column_unique h (fun x y => (hcovered x y).symm) x⟩
  · rintro ⟨_, _, _⟩ ⟨_, _, _⟩ rfl rfl rfl
    rfl

/-- Adding a slab behind the strips adds its pixels. -/
theorem pushStrip (h : Stripped strips) (hregions : ∀ region ∈ regions, region.isEmpty = false)
    (hedges : edges.1 < edges.2) (hlast : ∀ last ∈ strips.getLast?, last.maxX ≤ edges.1) :
    Stripped (Graph.pushStrip regions strips edges) ∧
      (∀ last ∈ (Graph.pushStrip regions strips edges).getLast?, last.maxX ≤ edges.2) ∧
      ∀ x y, Covered (Graph.pushStrip regions strips edges) x y ↔ Covered strips x y ∨
        (edges.1 ≤ x ∧ x < edges.2) ∧ Meets (mergedIntervals regions edges) y := by
  obtain ⟨hspaced, -⟩ := mergedIntervals_spec hregions edges
  have hcovered : ∀ pushed : List RegionStrip,
      (∀ x, columnAt pushed x =
        paint (columnAt strips) edges.1 edges.2 (mergedIntervals regions edges) x) →
      ∀ x y, Covered pushed x y ↔ Covered strips x y ∨
        (edges.1 ≤ x ∧ x < edges.2) ∧ Meets (mergedIntervals regions edges) y := by
    intro pushed hpaint x y
    rw [Covered, Covered, hpaint, paint]
    by_cases hx : edges.1 ≤ x ∧ x < edges.2
    · have hbehind : columnAt strips x = none :=
        h.runs.valueAt_behind fun last hmem => (hlast last hmem).trans hx.1
      simp [hx, hbehind]
    · simp [hx]
  unfold Graph.pushStrip
  dsimp only
  split
  · -- nothing is dirty over the slab
    rename_i hclean
    rw [List.isEmpty_iff] at hclean
    refine ⟨h, fun last hmem => (hlast last hmem).trans hedges.le, fun x y => ?_⟩
    simp [hclean, Meets]
  · rename_i hdirty
    rw [List.isEmpty_iff] at hdirty
    have happend : ∀ {strip : RegionStrip} {front : List RegionStrip},
        (∀ s ∈ front, Spaced s.yIntervals ∧ s.yIntervals ≠ []) →
        strip.yIntervals = mergedIntervals regions edges →
        Runs.Canonical RegionStrip.minX RegionStrip.maxX RegionStrip.yIntervals (front ++ [strip]) →
        Stripped (front ++ [strip]) := by
      intro strip front hfront hintervals hruns
      refine ⟨hruns, fun s hs => ?_, fun s hs => ?_⟩
      · rcases List.mem_append.1 hs with hs | hs
        · exact (hfront s hs).1
        · rw [List.mem_singleton.1 hs, hintervals]
          exact hspaced
      · rcases List.mem_append.1 hs with hs | hs
        · exact (hfront s hs).2
        · rw [List.mem_singleton.1 hs, hintervals]
          exact hdirty
    rcases List.eq_nil_or_concat' strips with rfl | ⟨front, previous, rfl⟩
    · obtain ⟨hruns, hpaint⟩ := Runs.Canonical.push
        (i := ⟨edges.1, edges.2, mergedIntervals regions edges⟩) h.runs hedges (by simp)
      exact ⟨happend (fun s hs => absurd hs List.not_mem_nil) rfl hruns, by simp,
        hcovered _ hpaint⟩
    · have hend : previous.maxX ≤ edges.1 := hlast previous List.getLast?_concat
      rw [List.getLast?_concat]
      dsimp only
      split
      · -- the last strip has the same intervals and ends where the slab starts
        obtain ⟨htouch, hsame⟩ := ‹_ ∧ _›
        have hfront : ∀ s ∈ front, Spaced s.yIntervals ∧ s.yIntervals ≠ [] := fun s hs =>
          ⟨h.spaced s (List.mem_append_left _ hs), h.dirty s (List.mem_append_left _ hs)⟩
        have hprevious : previous.minX < previous.maxX := h.runs.positive previous (by simp)
        have hwider : edges.2 = max previous.maxX edges.2 :=
          (max_eq_right (htouch ▸ hedges.le)).symm
        obtain ⟨hruns, hpaint⟩ := Runs.Canonical.grow
          (i := ⟨edges.1, edges.2, mergedIntervals regions edges⟩)
          (k := { previous with maxX := edges.2 }) h.runs (hprevious.le.trans hend) htouch.ge
          hsame.symm rfl hwider rfl
        rw [List.dropLast_concat]
        exact ⟨happend hfront hsame hruns, by simp, hcovered _ hpaint⟩
      · rename_i hdiffers
        obtain ⟨hruns, hpaint⟩ := Runs.Canonical.push
          (i := ⟨edges.1, edges.2, mergedIntervals regions edges⟩) h.runs hedges (by
            intro last hmem
            rw [List.getLast?_concat, Option.mem_some_iff] at hmem
            exact hmem ▸ ⟨hend, fun htouch hsame => hdiffers ⟨htouch, hsame⟩⟩)
        refine ⟨happend (fun s hs => ⟨h.spaced s hs, h.dirty s hs⟩) rfl hruns, ?_, hcovered _ hpaint⟩
        simp

/-- Adding every slab between edges in order. -/
theorem pushAll {first : Int} {rest : List Int} (h : Stripped strips)
    (hregions : ∀ region ∈ regions, region.isEmpty = false)
    (hsorted : (first :: rest).Pairwise (· < ·))
    (hlast : ∀ last ∈ strips.getLast?, last.maxX ≤ first) :
    Stripped (((first :: rest).zip rest).foldl (Graph.pushStrip regions) strips) ∧
      ∀ x y, Covered (((first :: rest).zip rest).foldl (Graph.pushStrip regions) strips) x y ↔
        Covered strips x y ∨ ∃ w ∈ (first :: rest).zip rest,
          (w.1 ≤ x ∧ x < w.2) ∧ Meets (mergedIntervals regions w) y := by
  induction rest generalizing first strips with
  | nil => exact ⟨h, by simp⟩
  | cons second rest ih =>
      have hfirst : first < second := List.rel_of_pairwise_cons hsorted List.mem_cons_self
      have hwindow : ((first, second) : Int × Int).1 < (first, second).2 := hfirst
      obtain ⟨hstripped, hend, hcovered⟩ := h.pushStrip hregions hwindow hlast
      obtain ⟨hstripped', hcovered'⟩ := ih hstripped hsorted.of_cons hend
      refine ⟨hstripped', fun x y => ?_⟩
      rw [List.zip_cons_cons, List.foldl_cons, hcovered', hcovered, or_assoc]
      simp only [List.mem_cons, exists_eq_or_imp]

end Stripped

theorem mem_xEdges {regions : List PixelBounds} {x : Int} :
    x ∈ xEdges regions ↔ ∃ region ∈ regions, x = region.minX ∨ x = region.maxX := by
  simp [xEdges]

theorem xEdges_sorted (regions : List PixelBounds) : (xEdges regions).Pairwise (· < ·) := by
  have hsorted := List.pairwise_insertionSort (· ≤ ·)
    (regions.flatMap fun region => [region.minX, region.maxX]).dedup
  have hnodup := (List.perm_insertionSort (· ≤ ·) _).nodup_iff.2
    (List.nodup_dedup (regions.flatMap fun region => [region.minX, region.maxX]))
  exact (hsorted.and hnodup).imp fun h => lt_of_le_of_ne h.1 h.2

/-- The strips cover the pixels of the bounds. -/
theorem regionStrips_spec {regions : List PixelBounds}
    (hregions : ∀ region ∈ regions, region.isEmpty = false) :
    Stripped (regionStrips regions) ∧
      ∀ x y, Covered (regionStrips regions) x y ↔ ∃ region ∈ regions, (x, y) ∈ region.pixels := by
  have hsorted := xEdges_sorted regions
  have hstrips : Stripped (regionStrips regions) ∧ ∀ x y, Covered (regionStrips regions) x y ↔
      ∃ w ∈ (xEdges regions).zip (xEdges regions).tail,
        (w.1 ≤ x ∧ x < w.2) ∧ Meets (mergedIntervals regions w) y := by
    rw [regionStrips]
    generalize xEdges regions = edges at hsorted
    cases edges with
    | nil => exact ⟨Stripped.nil, by simp [Covered]⟩
    | cons first rest =>
        obtain ⟨hstripped, hcovered⟩ := Stripped.nil.pushAll hregions hsorted (by simp)
        refine ⟨hstripped, fun x y => ?_⟩
        rw [List.tail_cons, hcovered]
        simp [Covered]
  refine ⟨hstrips.1, fun x y => (hstrips.2 x y).trans ?_⟩
  simp only [(mergedIntervals_spec hregions _).2, PixelBounds.mem_pixels]
  constructor
  · rintro ⟨w, -, hx, region, hregion, hactive, hy⟩
    exact ⟨region, hregion, ⟨hactive.1.trans hx.1, hx.2.trans_le hactive.2⟩, hy⟩
  · rintro ⟨region, hregion, hx, hy⟩
    have hmin : region.minX ∈ xEdges regions := mem_xEdges.2 ⟨region, hregion, .inl rfl⟩
    have hmax : region.maxX ∈ xEdges regions := mem_xEdges.2 ⟨region, hregion, .inr rfl⟩
    -- no edge crosses the window around `x`, so the bounds reach over all of it
    obtain ⟨w, hw, hcovers, hbefore, hbehind⟩ := Runs.exists_window hsorted hmin hx.1 hmax hx.2
    exact ⟨w, hw, hcovers, region, hregion, ⟨hbefore _ hmin hx.1, hbehind _ hmax hx.2⟩, hy⟩

/-! ## Rectangles -/

/-- Collecting results that are all there. -/
theorem mapM_id_eq_some {α : Type} {results : List (Option α)} {values : List α} :
    results.mapM id = some values ↔ results = values.map some := by
  induction results generalizing values with
  | nil => cases values <;> simp
  | cons result rest ih =>
      cases result with
      | none => cases values <;> simp
      | some value =>
          rw [List.mapM_cons, Option.bind_eq_bind, id, Option.bind_some, Option.bind_eq_bind]
          constructor
          · intro h
            obtain ⟨others, hothers, hvalues⟩ := Option.bind_eq_some_iff.1 h
            rw [← Option.some.inj hvalues, List.map_cons, ih.1 hothers]
          · intro h
            cases values with
            | nil => cases h
            | cons first others =>
                obtain ⟨hfirst, hothers⟩ := List.cons.inj h
                rw [ih.2 hothers, Option.bind_some, Option.some.inj hfirst]
                rfl

namespace RegionStrip

variable {strip : RegionStrip} {interval : Int × Int} {bounds : PixelBounds}

theorem rectangle_eq_some : strip.rectangle interval = some bounds ↔
    bounds.minX = strip.minX ∧ bounds.minY = interval.1 ∧ bounds.maxX = strip.maxX ∧
      bounds.maxY = interval.2 := by
  rcases bounds with ⟨minX, minY, maxX, maxY, hx, hy⟩
  unfold rectangle PixelBounds.new
  split
  · rename_i h
    simp only [Except.toOption, reduceCtorEq, false_iff]
    omega
  · simp only [Except.toOption, Option.some.injEq, PixelBounds.mk.injEq, eq_comm]

theorem exists_rectangle (hx : strip.minX ≤ strip.maxX) (hy : interval.1 ≤ interval.2) :
    ∃ bounds, strip.rectangle interval = some bounds :=
  ⟨⟨strip.minX, interval.1, strip.maxX, interval.2, hx, hy⟩, rectangle_eq_some.2 ⟨rfl, rfl, rfl, rfl⟩⟩

end RegionStrip

/-- A list of rectangles read off a canonical run of strips. -/
def Canonical (regions : List PixelBounds) : Prop :=
  ∃ strips, Stripped strips ∧ stripRectangles strips = some regions

theorem Stripped.exists_rectangles {strips : List RegionStrip} (h : Stripped strips) :
    ∃ regions, stripRectangles strips = some regions := by
  have hall : ∀ result ∈ strips.flatMap fun (strip : RegionStrip) =>
      strip.yIntervals.map strip.rectangle, result ∈ Set.range some := by
    simp only [List.mem_flatMap, List.mem_map]
    rintro _ ⟨strip, hstrip, interval, hinterval, rfl⟩
    obtain ⟨bounds, hbounds⟩ := RegionStrip.exists_rectangle (h.runs.positive strip hstrip).le
      ((h.spaced strip hstrip).positive interval hinterval).le
    exact ⟨bounds, hbounds.symm⟩
  obtain ⟨regions, hregions⟩ := (Set.range_list_map some).ge hall
  exact ⟨regions, mapM_id_eq_some.2 hregions.symm⟩

namespace Canonical

variable {regions regions' : List PixelBounds}

theorem nil : Canonical [] := ⟨[], Stripped.nil, rfl⟩

variable {strips : List RegionStrip}

theorem mem_iff (hrectangles : stripRectangles strips = some regions) {bounds : PixelBounds} :
    bounds ∈ regions ↔
    ∃ strip ∈ strips, ∃ interval ∈ strip.yIntervals, strip.rectangle interval = some bounds := by
  rw [← List.mem_map_of_injective (Option.some_injective _),
    ← mapM_id_eq_some.1 hrectangles]
  simp only [List.mem_flatMap, List.mem_map]

/-- The rectangles have the pixels of the strips. -/
theorem exists_mem_pixels (h : Stripped strips)
    (hrectangles : stripRectangles strips = some regions) {x y : Int} :
    (∃ region ∈ regions, (x, y) ∈ region.pixels) ↔ Covered strips x y := by
  rw [h.covered_iff]
  constructor
  · rintro ⟨region, hregion, hpixel⟩
    obtain ⟨strip, hstrip, interval, hinterval, hrectangle⟩ := (mem_iff hrectangles).1 hregion
    obtain ⟨hminX, hminY, hmaxX, hmaxY⟩ := RegionStrip.rectangle_eq_some.1 hrectangle
    rw [PixelBounds.mem_pixels, hminX, hminY, hmaxX, hmaxY] at hpixel
    exact ⟨strip, hstrip, hpixel.1, interval, hinterval, hpixel.2⟩
  · rintro ⟨strip, hstrip, hx, interval, hinterval, hy⟩
    obtain ⟨bounds, hbounds⟩ := RegionStrip.exists_rectangle (h.runs.positive strip hstrip).le
      ((h.spaced strip hstrip).positive interval hinterval).le
    obtain ⟨hminX, hminY, hmaxX, hmaxY⟩ := RegionStrip.rectangle_eq_some.1 hbounds
    refine ⟨bounds, (mem_iff hrectangles).2 ⟨strip, hstrip, interval, hinterval, hbounds⟩, ?_⟩
    rw [PixelBounds.mem_pixels, hminX, hminY, hmaxX, hmaxY]
    exact ⟨hx, hy⟩

/-- Every rectangle has an extent. -/
theorem not_isEmpty (h : Canonical regions) : ∀ region ∈ regions, region.isEmpty = false := by
  obtain ⟨strips, hstrips, hrectangles⟩ := h
  intro region hregion
  obtain ⟨strip, hstrip, interval, hinterval, hrectangle⟩ :=
    (mem_iff hrectangles).1 hregion
  obtain ⟨hminX, hminY, hmaxX, hmaxY⟩ := RegionStrip.rectangle_eq_some.1 hrectangle
  rw [PixelBounds.not_isEmpty_iff, hminX, hminY, hmaxX, hmaxY]
  exact ⟨hstrips.runs.positive strip hstrip, (hstrips.spaced strip hstrip).positive interval hinterval⟩

/-- No two rectangles share a pixel. -/
theorem disjoint (h : Canonical regions) :
    regions.Pairwise fun region other => Disjoint region.pixels other.pixels := by
  obtain ⟨strips, hstrips, hrectangles⟩ := h
  have hpairs : (regions.map some).Pairwise fun result result' =>
      ∀ region ∈ result, ∀ other ∈ result', Disjoint region.pixels other.pixels := by
    rw [← mapM_id_eq_some.1 hrectangles, List.pairwise_flatMap]
    constructor
    · -- the rectangles of one strip lie in rows that do not meet
      intro strip hstrip
      rw [List.pairwise_map]
      refine (hstrips.spaced strip hstrip).ordered.imp fun {i j} hrows region hregion other hother => ?_
      obtain ⟨-, -, -, hmaxY⟩ := RegionStrip.rectangle_eq_some.1 hregion
      obtain ⟨-, hminY, -, -⟩ := RegionStrip.rectangle_eq_some.1 hother
      rw [Set.disjoint_left]
      intro p hp hp'
      rw [PixelBounds.mem_pixels] at hp hp'
      omega
    · -- those of two strips lie in columns that do not meet
      refine hstrips.runs.ordered.imp fun {s t} hcolumns => ?_
      simp only [List.mem_map]
      rintro _ ⟨i, -, rfl⟩ _ ⟨j, -, rfl⟩ region hregion other hother
      obtain ⟨-, -, hmaxX, -⟩ := RegionStrip.rectangle_eq_some.1 hregion
      obtain ⟨hminX, -, -, -⟩ := RegionStrip.rectangle_eq_some.1 hother
      rw [Set.disjoint_left]
      intro p hp hp'
      rw [PixelBounds.mem_pixels] at hp hp'
      omega
  rw [List.pairwise_map] at hpairs
  exact hpairs.imp fun hpair => hpair _ rfl _ rfl

/-- Canonical rectangles are determined by their pixels. -/
theorem unique (h : Canonical regions) (h' : Canonical regions')
    (hpixels : ∀ p : Int × Int,
      (∃ region ∈ regions, p ∈ region.pixels) ↔ ∃ region ∈ regions', p ∈ region.pixels) :
    regions = regions' := by
  obtain ⟨strips, hstrips, hrectangles⟩ := h
  obtain ⟨strips', hstrips', hrectangles'⟩ := h'
  have hsame : strips = strips' := hstrips.unique hstrips' fun x y => by
    rw [← exists_mem_pixels hstrips hrectangles, ← exists_mem_pixels hstrips' hrectangles']
    exact hpixels (x, y)
  exact Option.some.inj (hrectangles.symm.trans (hsame ▸ hrectangles'))

end Canonical

/-- Normalization reaches canonical rectangles with the same pixels. -/
theorem normalizeRegions_spec (regions : List PixelBounds) :
    ∃ normalized, normalizeRegions regions = some normalized ∧ Canonical normalized ∧
      ∀ p : Int × Int, (∃ region ∈ normalized, p ∈ region.pixels) ↔
        ∃ region ∈ regions, p ∈ region.pixels := by
  have hfilter : ∀ p : Int × Int,
      (∃ region ∈ regions.filter fun region => !region.isEmpty, p ∈ region.pixels) ↔
        ∃ region ∈ regions, p ∈ region.pixels := by
    intro p
    simp only [List.mem_filter, Bool.not_eq_true', and_assoc]
    refine exists_congr fun region => and_congr_right fun _ => and_iff_right_of_imp fun hp => ?_
    rw [← Bool.not_eq_true]
    intro hempty
    exact (PixelBounds.pixels_eq_empty hempty ▸ hp : p ∈ (∅ : Set (Int × Int)))
  rw [normalizeRegions]
  split
  · rename_i hempty
    refine ⟨[], rfl, Canonical.nil, fun p => ?_⟩
    rw [← hfilter, List.isEmpty_iff.1 hempty]
  · have hextent : ∀ region ∈ regions.filter fun region => !region.isEmpty,
        region.isEmpty = false := by simp
    obtain ⟨hstrips, hcovered⟩ := regionStrips_spec hextent
    obtain ⟨normalized, hnormalized⟩ := hstrips.exists_rectangles
    refine ⟨normalized, hnormalized, ⟨_, hstrips, hnormalized⟩, fun p => ?_⟩
    rw [← hfilter, ← hcovered p.1 p.2]
    exact Canonical.exists_mem_pixels hstrips hnormalized

/-! ## Set operations -/

/-- The pixels of one extent. -/
def DirtyRegion.pixels : DirtyRegion → Set (Int × Int)
  | .fullFrame => Set.univ
  | .bounds extent => extent.pixels

namespace DirtyRegionSet

variable {set set' : DirtyRegionSet}

/-- The dirty pixels. -/
def pixels (set : DirtyRegionSet) : Set (Int × Int) :=
  {p | set.fullFrame = true ∨ ∃ region ∈ set.regions, p ∈ region.pixels}

/-- The form every operation leaves a set in. -/
structure Normal (set : DirtyRegionSet) : Prop where
  whole : set.fullFrame = true → set.regions = []
  canonical : Canonical set.regions

theorem Normal.empty : Normal empty := ⟨nofun, Canonical.nil⟩

theorem Normal.fullFrameSet : Normal fullFrameSet := ⟨fun _ => rfl, Canonical.nil⟩

theorem pixels_empty : empty.pixels = ∅ := by
  simp [pixels, empty]

theorem pixels_of_fullFrame (h : set.fullFrame = true) : set.pixels = Set.univ := by
  simp [pixels, h]

theorem pixels_of_isEmpty (h : set.isEmpty = true) : set.pixels = ∅ := by
  simp only [isEmpty, Bool.and_eq_true, Bool.not_eq_true', List.isEmpty_iff] at h
  simp [pixels, h]

theorem mem_pixels (h : set.fullFrame = false) {p : Int × Int} :
    p ∈ set.pixels ↔ ∃ region ∈ set.regions, p ∈ region.pixels := by
  simp [pixels, h]

/-- A finite set with given pixels has one normal form. -/
theorem Normal.unique (h : Normal set) (h' : Normal set')
    (hwhole : set.fullFrame = set'.fullFrame) (hpixels : set.pixels = set'.pixels) :
    set = set' := by
  rcases set with ⟨whole, regions⟩
  rcases set' with ⟨_, regions'⟩
  cases hwhole
  cases whole with
  | true =>
      have hempty : regions = [] := h.whole rfl
      have hempty' : regions' = [] := h'.whole rfl
      rw [hempty, hempty']
  | false =>
      have hsame : regions = regions' := h.canonical.unique h'.canonical fun p => by
        have hp : p ∈ (⟨false, regions⟩ : DirtyRegionSet).pixels ↔
            p ∈ (⟨false, regions'⟩ : DirtyRegionSet).pixels := by rw [hpixels]
        rwa [mem_pixels rfl, mem_pixels rfl] at hp
      rw [hsame]

/-- A finite set rebuilt from `regions`. -/
theorem normalized (h : set.fullFrame = false) (regions : List PixelBounds) :
    ∃ result, ((normalizeRegions regions).map fun regions => { set with regions }) = some result ∧
      Normal result ∧ result.pixels = {p | ∃ region ∈ regions, p ∈ region.pixels} := by
  obtain ⟨normal, hnormal, hcanonical, hpixels⟩ := normalizeRegions_spec regions
  have hnone : ¬ set.fullFrame = true := by rw [h]; exact nofun
  refine ⟨{ set with regions := normal }, by rw [hnormal]; rfl,
    ⟨fun hwhole => absurd hwhole hnone, hcanonical⟩, ?_⟩
  ext p
  exact (or_iff_right hnone).trans (hpixels p)

theorem insert_spec (h : Normal set) (region : DirtyRegion) :
    ∃ result, set.insert region = some result ∧ Normal result ∧
      result.pixels = set.pixels ∪ region.pixels := by
  cases region with
  | fullFrame =>
      refine ⟨_, rfl, ⟨fun _ => rfl, Canonical.nil⟩, ?_⟩
      rw [pixels_of_fullFrame rfl, DirtyRegion.pixels, Set.union_univ]
  | bounds bounds =>
      simp only [insert, DirtyRegion.pixels]
      split
      · rename_i hfinite
        rw [Bool.and_eq_true, Bool.not_eq_true', Bool.not_eq_true'] at hfinite
        obtain ⟨result, hresult, hnormal, hpixels⟩ := normalized hfinite.1 (set.regions ++ [bounds])
        refine ⟨result, hresult, hnormal, hpixels.trans ?_⟩
        ext p
        simp [mem_pixels hfinite.1, or_and_right, exists_or]
      · -- the frame is dirty already, or the bounds have no pixel
        rename_i hskip
        refine ⟨set, rfl, h, ?_⟩
        rw [Bool.and_eq_true, Bool.not_eq_true', Bool.not_eq_true', not_and_or,
          Bool.not_eq_false, Bool.not_eq_false] at hskip
        rcases hskip with hwhole | hempty
        · rw [pixels_of_fullFrame hwhole, Set.univ_union]
        · rw [PixelBounds.pixels_eq_empty hempty, Set.union_empty]

theorem unionWith_spec (h : Normal set) (other : DirtyRegionSet) :
    ∃ result, set.unionWith other = some result ∧ Normal result ∧
      result.pixels = set.pixels ∪ other.pixels := by
  unfold unionWith
  split
  · rename_i hskip
    refine ⟨set, rfl, h, ?_⟩
    rcases (Bool.or_eq_true _ _).mp hskip with hwhole | hempty
    · rw [pixels_of_fullFrame hwhole, Set.univ_union]
    · rw [pixels_of_isEmpty hempty, Set.union_empty]
  · rename_i hskip
    rw [Bool.or_eq_true, not_or, Bool.not_eq_true, Bool.not_eq_true] at hskip
    split
    · rename_i hwhole
      refine ⟨_, rfl, ⟨fun _ => rfl, Canonical.nil⟩, ?_⟩
      rw [pixels_of_fullFrame rfl, pixels_of_fullFrame hwhole, Set.union_univ]
    · rename_i hfinite
      rw [Bool.not_eq_true] at hfinite
      obtain ⟨result, hresult, hnormal, hpixels⟩ := normalized hskip.1 (set.regions ++ other.regions)
      refine ⟨result, hresult, hnormal, hpixels.trans ?_⟩
      ext p
      simp [mem_pixels hskip.1, mem_pixels hfinite, or_and_right, exists_or]

theorem clipTo_spec (set : DirtyRegionSet) (requested : PixelBounds) :
    ∃ result, set.clipTo requested = some result ∧ Normal result ∧
      result.pixels = set.pixels ∩ requested.pixels := by
  unfold clipTo
  split
  · rename_i hskip
    refine ⟨empty, rfl, Normal.empty, ?_⟩
    rcases (Bool.or_eq_true _ _).mp hskip with hrequested | hempty
    · rw [pixels_empty, PixelBounds.pixels_eq_empty hrequested, Set.inter_empty]
    · rw [pixels_empty, pixels_of_isEmpty hempty, Set.empty_inter]
  · split
    · rename_i hwhole
      obtain ⟨result, hresult, hnormal, hpixels⟩ := insert_spec Normal.empty (.bounds requested)
      refine ⟨result, hresult, hnormal, hpixels.trans ?_⟩
      rw [pixels_empty, pixels_of_fullFrame hwhole, Set.empty_union, Set.univ_inter,
        DirtyRegion.pixels]
    · rename_i hfinite
      rw [Bool.not_eq_true] at hfinite
      obtain ⟨result, hresult, hnormal, hpixels⟩ := normalized (show empty.fullFrame = false from rfl)
        (set.regions.filterMap fun region => region.intersection requested)
      refine ⟨result, hresult, hnormal, hpixels.trans ?_⟩
      ext p
      rw [Set.mem_inter_iff, mem_pixels hfinite]
      simp only [List.mem_filterMap, Set.mem_ofPred_eq]
      constructor
      · rintro ⟨overlap, ⟨region, hregion, hoverlap⟩, hp⟩
        obtain ⟨hleft, hright⟩ := PixelBounds.mem_intersection.1 ⟨overlap, hoverlap, hp⟩
        exact ⟨⟨region, hregion, hleft⟩, hright⟩
      · rintro ⟨⟨region, hregion, hleft⟩, hright⟩
        obtain ⟨overlap, hoverlap, hp⟩ := PixelBounds.mem_intersection.2 ⟨hleft, hright⟩
        exact ⟨overlap, ⟨region, hregion, hoverlap⟩, hp⟩

end DirtyRegionSet

/-! ## Every sequence of operations -/

/-- How a region set was built: from nothing or the whole frame, by any sequence of operations whose
operands were built in the same way. -/
inductive RegionBuild
  | empty
  | fullFrame
  | insert (build : RegionBuild) (region : DirtyRegion)
  | unionWith (build other : RegionBuild)
  | clipTo (build : RegionBuild) (requested : PixelBounds)

namespace RegionBuild

/-- The set that the operations leave; none where one of them stops. -/
def run : RegionBuild → Option DirtyRegionSet
  | .empty => some DirtyRegionSet.empty
  | .fullFrame => some DirtyRegionSet.fullFrameSet
  | .insert build region => do (← build.run).insert region
  | .unionWith build other => do (← build.run).unionWith (← other.run)
  | .clipTo build requested => do (← build.run).clipTo requested

/-- The pixels the operations are about. -/
def pixels : RegionBuild → Set (Int × Int)
  | .empty => ∅
  | .fullFrame => Set.univ
  | .insert build region => build.pixels ∪ region.pixels
  | .unionWith build other => build.pixels ∪ other.pixels
  | .clipTo build requested => build.pixels ∩ requested.pixels

/-- Every sequence of operations reaches a normal set with the pixels it is about. -/
theorem run_spec (build : RegionBuild) :
    ∃ set, build.run = some set ∧ set.Normal ∧ set.pixels = build.pixels := by
  induction build with
  | empty => exact ⟨_, rfl, .empty, DirtyRegionSet.pixels_empty⟩
  | fullFrame => exact ⟨_, rfl, .fullFrameSet, DirtyRegionSet.pixels_of_fullFrame rfl⟩
  | insert build region ih =>
      obtain ⟨set, hrun, hnormal, hpixels⟩ := ih
      obtain ⟨result, hresult, hspec⟩ := DirtyRegionSet.insert_spec hnormal region
      rw [hpixels] at hspec
      exact ⟨result, by rw [run, hrun, Option.bind_eq_bind, Option.bind_some, hresult], hspec⟩
  | unionWith build other ih ihOther =>
      obtain ⟨set, hrun, hnormal, hpixels⟩ := ih
      obtain ⟨set', hrun', -, hpixels'⟩ := ihOther
      obtain ⟨result, hresult, hspec⟩ := DirtyRegionSet.unionWith_spec hnormal set'
      rw [hpixels, hpixels'] at hspec
      exact ⟨result, by simp only [run, hrun, hrun', Option.bind_eq_bind, Option.bind_some, hresult],
        hspec⟩
  | clipTo build requested ih =>
      obtain ⟨set, hrun, -, hpixels⟩ := ih
      obtain ⟨result, hresult, hspec⟩ := DirtyRegionSet.clipTo_spec set requested
      rw [hpixels] at hspec
      exact ⟨result, by rw [run, hrun, Option.bind_eq_bind, Option.bind_some, hresult], hspec⟩

end RegionBuild

/-- Every sequence of insertions, unions and clippings leaves a set with exactly the pixels of the
set algebra, kept as disjoint rectangles that are not empty; and what any two sequences leave is the
same once it covers the same pixels. -/
theorem dirty_regions_are_canonical (build : RegionBuild) :
    ∃ set, build.run = some set ∧ set.pixels = build.pixels ∧
      (∀ region ∈ set.regions, region.isEmpty = false) ∧
      (set.regions.Pairwise fun region other => Disjoint region.pixels other.pixels) ∧
      ∀ (build' : RegionBuild) (set' : DirtyRegionSet), build'.run = some set' →
        set'.isFullFrame = set.isFullFrame → set'.pixels = set.pixels → set' = set := by
  obtain ⟨set, hrun, hnormal, hpixels⟩ := build.run_spec
  refine ⟨set, hrun, hpixels, hnormal.canonical.not_isEmpty, hnormal.canonical.disjoint, ?_⟩
  intro build' set' hrun' hwhole hsame
  obtain ⟨result, hresult, hnormal', -⟩ := build'.run_spec
  cases Option.some.inj (hresult.symm.trans hrun')
  exact hnormal'.unique hnormal hwhole hsame

-- A wide bar and a tall one make the same strips in either order.
example : (((RegionBuild.empty.insert (.bounds ⟨0, 0, 3, 1, by decide, by decide⟩)).insert
      (.bounds ⟨1, 0, 2, 4, by decide, by decide⟩)).run.map fun set => set.regions.length) = some 3 ∧
    ((RegionBuild.empty.insert (.bounds ⟨0, 0, 3, 1, by decide, by decide⟩)).insert
      (.bounds ⟨1, 0, 2, 4, by decide, by decide⟩)).run =
    ((RegionBuild.empty.insert (.bounds ⟨1, 0, 2, 4, by decide, by decide⟩)).insert
      (.bounds ⟨0, 0, 3, 1, by decide, by decide⟩)).run := by
  decide +kernel

end Graph
end Superi

import Mathlib
import Superi.Core.Error
import Superi.Graph.Eval

/-!
# DirtyRegions — exact unions of pixel bounds

Dirty output work is the whole frame or a finite union of pixel bounds.  A finite union is
*normalized* whenever it changes: the plane is cut at every vertical edge, the bounds over one slab
are merged into intervals, slabs with equal intervals that touch become one strip, and every strip
contributes one rectangle for each of its intervals.  An irregular union is never replaced by its
bounding box.
-/

namespace Superi
namespace Graph

open Core

namespace PixelBounds

/-- Pixel bounds from inclusive minimum and exclusive maximum edges. -/
def new (minX minY maxX maxY : Int) : Except Error PixelBounds :=
  if h : minX > maxX ∨ minY > maxY then
    .error ((Error.new .invalidInput .userCorrectable
      "pixel-bound minimum edges must not exceed maximum edges").withContext
        ⟨"superi-core.geometry", "create_pixel_bounds"⟩)
  else
    .ok { minX, minY, maxX, maxY, horizontal := by omega, vertical := by omega }

/-- Either dimension is zero. -/
def isEmpty (bounds : PixelBounds) : Bool :=
  bounds.minX == bounds.maxX || bounds.minY == bounds.maxY

/-- Whether the pixel index lies inside the half-open edges. -/
def contains (bounds : PixelBounds) (x y : Int) : Bool :=
  decide (bounds.minX ≤ x) && decide (x < bounds.maxX) &&
    decide (bounds.minY ≤ y) && decide (y < bounds.maxY)

/-- The nonempty overlap of two pixel bounds. -/
def intersection (bounds other : PixelBounds) : Option PixelBounds :=
  let minX := max bounds.minX other.minX
  let minY := max bounds.minY other.minY
  let maxX := min bounds.maxX other.maxX
  let maxY := min bounds.maxY other.maxY
  if h : minX < maxX ∧ minY < maxY then
    some { minX, minY, maxX, maxY, horizontal := h.1.le, vertical := h.2.le }
  else
    none

end PixelBounds

/-- One dirty output extent. -/
inductive DirtyRegion
  | fullFrame
  | bounds (bounds : PixelBounds)
  deriving DecidableEq, Repr

/-! ## Normalization -/

/-- A slab between two vertical edges, with the intervals that are dirty in all of it. -/
structure RegionStrip where
  minX : Int
  maxX : Int
  yIntervals : List (Int × Int)
  deriving DecidableEq, Repr

/-- The order of pairs: by the first component, then by the second. -/
def pairLe (a b : Int × Int) : Prop :=
  a.1 < b.1 ∨ a.1 = b.1 ∧ a.2 ≤ b.2

instance : DecidableRel pairLe := fun a b =>
  inferInstanceAs (Decidable (a.1 < b.1 ∨ a.1 = b.1 ∧ a.2 ≤ b.2))

/-- Merge one interval into the intervals before it; they are offered in order. -/
def mergeInterval (merged : List (Int × Int)) (interval : Int × Int) : List (Int × Int) :=
  match merged.getLast? with
  | some current =>
      if interval.1 ≤ current.2 then
        merged.dropLast ++ [(current.1, max current.2 interval.2)]
      else
        merged ++ [interval]
  | none => [interval]

/-- The bounds that reach over the whole slab. -/
def activeRegions (regions : List PixelBounds) (edges : Int × Int) : List PixelBounds :=
  regions.filter fun region => decide (region.minX ≤ edges.1) && decide (edges.2 ≤ region.maxX)

/-- The intervals that are dirty over one slab. -/
def mergedIntervals (regions : List PixelBounds) (edges : Int × Int) : List (Int × Int) :=
  (((activeRegions regions edges).map fun region => (region.minY, region.maxY)).insertionSort
    pairLe).foldl mergeInterval []

/-- Add the slab behind the strips so far, or extend the last strip by it. -/
def pushStrip (regions : List PixelBounds) (strips : List RegionStrip) (edges : Int × Int) :
    List RegionStrip :=
  let merged := mergedIntervals regions edges
  if merged.isEmpty then
    strips
  else
    match strips.getLast? with
    | some previous =>
        if previous.maxX = edges.1 ∧ previous.yIntervals = merged then
          strips.dropLast ++ [{ previous with maxX := edges.2 }]
        else
          strips ++ [⟨edges.1, edges.2, merged⟩]
    | none => [⟨edges.1, edges.2, merged⟩]

/-- Every vertical edge once, in order. -/
def xEdges (regions : List PixelBounds) : List Int :=
  (regions.flatMap fun region => [region.minX, region.maxX]).dedup.insertionSort (· ≤ ·)

def regionStrips (regions : List PixelBounds) : List RegionStrip :=
  let edges := xEdges regions
  (edges.zip edges.tail).foldl (pushStrip regions) []

/-- The rectangle of one interval of a strip; there is none where the edges are not valid pixel
bounds, and the source stops there. -/
def RegionStrip.rectangle (strip : RegionStrip) (interval : Int × Int) : Option PixelBounds :=
  (PixelBounds.new strip.minX interval.1 strip.maxX interval.2).toOption

/-- The rectangles of the strips, one for each interval. -/
def stripRectangles (strips : List RegionStrip) : Option (List PixelBounds) :=
  (strips.flatMap fun (strip : RegionStrip) => strip.yIntervals.map strip.rectangle).mapM id

/-- The canonical rectangles of a finite union. -/
def normalizeRegions (regions : List PixelBounds) : Option (List PixelBounds) :=
  let regions := regions.filter fun region => !region.isEmpty
  if regions.isEmpty then
    some []
  else
    stripRectangles (regionStrips regions)

/-! ## Region sets -/

/-- An exact normalized union of dirty output regions. -/
structure DirtyRegionSet where
  fullFrame : Bool
  regions : List PixelBounds
  deriving DecidableEq, Repr

namespace DirtyRegionSet

/-- No dirty work. -/
def empty : DirtyRegionSet :=
  ⟨false, []⟩

/-- Every pixel of the output. -/
def fullFrameSet : DirtyRegionSet :=
  ⟨true, []⟩

def isFullFrame (set : DirtyRegionSet) : Bool :=
  set.fullFrame

def isEmpty (set : DirtyRegionSet) : Bool :=
  !set.fullFrame && set.regions.isEmpty

/-- Add one dirty extent. -/
def insert (set : DirtyRegionSet) (region : DirtyRegion) : Option DirtyRegionSet :=
  match region with
  | .fullFrame => some { set with fullFrame := true, regions := [] }
  | .bounds bounds =>
      if !set.fullFrame && !bounds.isEmpty then
        (normalizeRegions (set.regions ++ [bounds])).map fun regions => { set with regions }
      else
        some set

/-- The set of one dirty extent. -/
def fromRegion (region : DirtyRegion) : Option DirtyRegionSet :=
  empty.insert region

/-- Merge another set into this one. -/
def unionWith (set other : DirtyRegionSet) : Option DirtyRegionSet :=
  if set.fullFrame || other.isEmpty then
    some set
  else if other.fullFrame then
    some { set with fullFrame := true, regions := [] }
  else
    (normalizeRegions (set.regions ++ other.regions)).map fun regions => { set with regions }

/-- Only the dirty work inside the requested bounds. -/
def clipTo (set : DirtyRegionSet) (requested : PixelBounds) : Option DirtyRegionSet :=
  if requested.isEmpty || set.isEmpty then
    some empty
  else if set.fullFrame then
    fromRegion (.bounds requested)
  else
    (normalizeRegions (set.regions.filterMap fun region => region.intersection requested)).map
      fun regions => ⟨false, regions⟩

end DirtyRegionSet

end Graph
end Superi

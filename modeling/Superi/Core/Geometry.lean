import Superi.Core.Int128

/-!
# Geometry — half-open pixel bounds

Edges are signed 32-bit coordinates and sizes are unsigned 32-bit numbers.  A sum of a coordinate
and a size is computed in 64 bits, where it always fits, and checked on the way back.
-/

namespace Superi
namespace Core

open Result

/-- The value is representable as `i32`. -/
def InI32 (value : Int) : Prop := -2147483648 ≤ value ∧ value ≤ 2147483647

instance (value : Int) : Decidable (InI32 value) := inferInstanceAs (Decidable (_ ∧ _))

abbrev I32 := {value : Int // InI32 value}

/-- `i32::try_from`. -/
def toI32 (value : Int) : Option I32 := if h : InI32 value then some ⟨value, h⟩ else none

/-- Pixel edges, the minimum inclusive and the maximum exclusive. -/
structure PixelBounds where
  minX : I32
  minY : I32
  maxX : I32
  maxY : I32
  horizontal : minX ≤ maxX
  vertical : minY ≤ maxY
  deriving DecidableEq

def invalidGeometry (operation message : String) : Error :=
  (Error.new .invalidInput .userCorrectable message).withContext ⟨"superi-core.geometry", operation⟩

namespace PixelBounds

def new (minX minY maxX maxY : I32) : Except Error PixelBounds :=
  if h : minX > maxX ∨ minY > maxY then
    .error (invalidGeometry "create_pixel_bounds"
      "pixel-bound minimum edges must not exceed maximum edges")
  else
    .ok
      { minX, minY, maxX, maxY
        horizontal := le_of_not_gt fun hgt => h (.inl hgt)
        vertical := le_of_not_gt fun hgt => h (.inr hgt) }

variable (bounds : PixelBounds)

/-! ## Bounds as sets of pixels -/

variable {bounds} {other : PixelBounds} {x y : I32}

end PixelBounds
/-! ## Ratios -/

/-- A reduced positive ratio of two extents. -/
structure AspectRatio where
  numerator : Nat
  denominator : Nat
  numerator_pos : 0 < numerator
  denominator_pos : 0 < denominator
  numerator_fits : numerator < 4294967296
  denominator_fits : denominator < 4294967296
  reduced : Nat.Coprime numerator denominator

theorem AspectRatio.fields_injective : Function.Injective fun x : AspectRatio =>
    (x.numerator, x.denominator) := by
  rintro ⟨⟩ ⟨⟩ h
  simpa using h

instance : DecidableEq AspectRatio := AspectRatio.fields_injective.decidableEq

/-- A ratio of two `u32` values, reduced. -/
def AspectRatio.new (numerator denominator : Nat) (hn : numerator < 4294967296)
    (hd : denominator < 4294967296) : Except Error AspectRatio :=
  if hzero : numerator = 0 ∨ denominator = 0 then
    .error (invalidGeometry "create_aspect_ratio" "aspect ratio terms must be greater than zero")
  else
    have hn0 : 0 < numerator := Nat.pos_of_ne_zero fun h => hzero (.inl h)
    have hd0 : 0 < denominator := Nat.pos_of_ne_zero fun h => hzero (.inr h)
    have hg : 0 < Nat.gcd numerator denominator := Nat.gcd_pos_of_pos_left _ hn0
    .ok
      { numerator := numerator / Nat.gcd numerator denominator
        denominator := denominator / Nat.gcd numerator denominator
        numerator_pos := Nat.div_pos (Nat.le_of_dvd hn0 (Nat.gcd_dvd_left _ _)) hg
        denominator_pos := Nat.div_pos (Nat.le_of_dvd hd0 (Nat.gcd_dvd_right _ _)) hg
        numerator_fits := Timebase.reducedNumerator_fits denominator hn
        denominator_fits := Timebase.reducedDenominator_fits numerator hd
        reduced := Nat.coprime_div_gcd_div_gcd hg }

end Core
end Superi

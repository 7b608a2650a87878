import Superi.Core.Ids
import Superi.Core.Time
import Superi.Graph.Eval
import Superi.Lib.Keyed

/-!
# Key — exact identities of cached frames

A frame key is one 256-bit digest over everything that decides the pixels of a frame.  Keys are
ordered as their bytes are, which is the order of the digest read as one big-endian number.
-/

namespace Superi
namespace Cache

open Core Graph

/-- One versioned digest for a reusable frame or intermediate graph output. -/
structure FrameCacheKey where
  digest : BitVec 256
  deriving DecidableEq, Repr

namespace FrameCacheKey

instance : Ord FrameCacheKey := ⟨compareOn digest⟩

instance : Std.TransOrd FrameCacheKey :=
  inferInstanceAs (Std.TransCmp (compareOn digest))

instance : Std.LawfulEqOrd FrameCacheKey :=
  Keyed.lawfulEqCmp_compareOn fun a b hdigest => by
    cases a
    cases b
    simp_all

end FrameCacheKey

/-! ## Ingredients -/

/-- A project media identity with the digest of its content fingerprint. -/
structure MediaCacheIdentity where
  mediaId : MediaId
  contentFingerprint : BitVec 256
  deriving DecidableEq, Repr

/-- A digest of every evaluated parameter byte that can affect one result. -/
structure ParameterStateFingerprint where
  digest : BitVec 256
  deriving DecidableEq, Repr

/-- A digest of every render setting that can affect one result. -/
structure RenderSettingsFingerprint where
  digest : BitVec 256
  deriving DecidableEq, Repr

/-- A digest of color source identity, processing history and output intent. -/
structure ColorPipelineFingerprint where
  digest : BitVec 256
  deriving DecidableEq, Repr

structure FrameCacheKeyInputs where
  media : List MediaCacheIdentity
  graph : EvaluationCacheKey
  parameters : ParameterStateFingerprint
  color : ColorPipelineFingerprint
  time : RationalTime
  renderSettings : RenderSettingsFingerprint

/-! ## Derivation -/

/-- The low `count` bytes of a number, most significant first. -/
def beBytes (count value : Nat) : List UInt8 :=
  (List.range count).reverse.map fun place => UInt8.ofNat (value / 256 ^ place)

/-- The two's complement bytes of a 128-bit value. -/
def i128BeBytes (value : Int) : List UInt8 := beBytes 16 (value % 2 ^ 128).toNat

def frameCacheKeyDomain : List UInt8 := "superi.cache.frame-key.v1".toUTF8.toList ++ [0]

/-- Equal instants have equal bytes whatever their timebase. -/
def updatePhysicalTime (time : RationalTime) : List UInt8 :=
  let numerator := time.value * time.timebase.denominator
  let denominator : Int := time.timebase.numerator
  let divisor := Nat.gcd numerator.natAbs denominator.natAbs
  i128BeBytes (numerator / divisor) ++ i128BeBytes (denominator / divisor)

/-- Media identities are a set: order and duplicates do not count. -/
def canonicalMedia (media : List MediaCacheIdentity) : List MediaCacheIdentity :=
  (media.mergeSort fun left right =>
    (compareLex (compareOn MediaCacheIdentity.mediaId)
      (compareOn MediaCacheIdentity.contentFingerprint) left right).isLE).eraseReps

/-- The bytes a frame key is a digest of. -/
def FrameCacheKeyInputs.bytes (inputs : FrameCacheKeyInputs) : List UInt8 :=
  let media := canonicalMedia inputs.media
  frameCacheKeyDomain ++ beBytes 8 media.length ++
    (media.flatMap fun identity =>
      beBytes 16 identity.mediaId.raw.toNat ++ beBytes 32 identity.contentFingerprint.toNat) ++
    beBytes 32 inputs.graph.digest.toNat ++ beBytes 32 inputs.parameters.digest.toNat ++
    beBytes 32 inputs.color.digest.toNat ++ updatePhysicalTime inputs.time ++
    beBytes 32 inputs.renderSettings.digest.toNat

def FrameCacheKey.derive (sha256 : List UInt8 → BitVec 256) (inputs : FrameCacheKeyInputs) :
    FrameCacheKey :=
  ⟨sha256 inputs.bytes⟩

end Cache
end Superi

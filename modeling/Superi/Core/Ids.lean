import Superi.Lib.Keyed

/-!
# Ids — strongly typed identifiers

Every identified object carries one opaque 128-bit value.  The domain of the object is part of the
type, so identifiers of different domains cannot be confused; within a domain identifiers are
ordered by their value, which is the order of every ordered collection keyed by them.
-/

namespace Superi
namespace Core

/-- The object domain carried by an identifier. -/
inductive IdentifierKind
  | project
  | media
  | bin
  | smartCollection
  | track
  | clip
  | timeline
  | gap
  | transition
  | generator
  | caption
  | marker
  | node
  | parameter
  | job
  | cache
  | device
  | graph
  | port
  | edge
  | resource
  | multicamAngle
  deriving DecidableEq, Repr

/-- One opaque value in the domain `kind`. -/
structure Identifier (kind : IdentifierKind) where
  raw : BitVec 128
  deriving DecidableEq, Repr

namespace Identifier

variable {kind : IdentifierKind}

instance : Ord (Identifier kind) := ⟨compareOn raw⟩

instance : Std.TransOrd (Identifier kind) :=
  inferInstanceAs (Std.TransCmp (compareOn raw))

instance : Std.LawfulEqOrd (Identifier kind) :=
  Keyed.lawfulEqCmp_compareOn fun a b hraw => by
    cases a
    cases b
    simp_all

instance : LawfulBEq (Identifier kind) := inferInstance

end Identifier

abbrev ProjectId := Identifier .project
abbrev MediaId := Identifier .media
abbrev BinId := Identifier .bin
abbrev SmartCollectionId := Identifier .smartCollection
abbrev TrackId := Identifier .track
abbrev ClipId := Identifier .clip
abbrev TimelineId := Identifier .timeline
abbrev GapId := Identifier .gap
abbrev TransitionId := Identifier .transition
abbrev GeneratorId := Identifier .generator
abbrev CaptionId := Identifier .caption
abbrev MarkerId := Identifier .marker
abbrev NodeId := Identifier .node
abbrev ParameterId := Identifier .parameter
abbrev GraphId := Identifier .graph
abbrev PortId := Identifier .port
abbrev EdgeId := Identifier .edge
abbrev MulticamAngleId := Identifier .multicamAngle
abbrev DeviceId := Identifier .device
abbrev JobId := Identifier .job

end Core
end Superi

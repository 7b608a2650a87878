import Superi.Timeline.Validate

/-!
# Markers — timeline-local markers and metadata

Markers and metadata records are stored beside the tracks and attached to them by identity.  The
contents of a metadata record are carried along and never inspected here.
-/

namespace Superi
namespace Editorial

open Core Result

/-- Errors of `markers.rs`. -/
def invalidMarker (operation message : String) : Error :=
  (Error.new .invalidInput .userCorrectable message).withContext
    ⟨"superi-timeline.markers", operation⟩

def notFoundMarker (operation message : String) : Error :=
  (Error.new .notFound .userCorrectable message).withContext
    ⟨"superi-timeline.markers", operation⟩

def conflictMarker (operation message : String) : Error :=
  (Error.new .conflict .userCorrectable message).withContext
    ⟨"superi-timeline.markers", operation⟩

/-- The editorial object that owns a marker's authored range. -/
inductive MarkerOwner
  | timeline
  | track (id : TrackId)
  | object (id : EditorialObjectId)
  deriving DecidableEq, Repr

/-- The local owner of one metadata map. -/
inductive MetadataOwner
  | timeline
  | track (id : TrackId)
  | object (id : EditorialObjectId)
  | marker (id : MarkerId)
  deriving DecidableEq, Repr

theorem EditorialObjectId.rank_lt (id : EditorialObjectId) : id.rank < 5 * 2 ^ 128 := by
  cases id with
  | _ value =>
      have := value.raw.isLt
      simp only [rank]
      omega

namespace MetadataOwner

/-- Position in the derived order: by kind of owner, then by identity. -/
def rank : MetadataOwner → Nat
  | timeline => 0
  | track id => 1 + id.raw.toNat
  | object id => 1 + 2 ^ 128 + id.rank
  | marker id => 1 + 6 * 2 ^ 128 + id.raw.toNat

theorem rank_injective {left right : MetadataOwner} (h : left.rank = right.rank) :
    left = right := by
  have raw_lt : ∀ {kind : IdentifierKind} (id : Identifier kind), id.raw.toNat < 2 ^ 128 :=
    fun id => id.raw.isLt
  have raw_ext : ∀ {kind : IdentifierKind} (a b : Identifier kind), a.raw.toNat = b.raw.toNat →
      a = b := fun a b hraw => by
    cases a
    cases b
    simpa using BitVec.eq_of_toNat_eq hraw
  cases left with
  | timeline => cases right <;> simp only [rank] at h <;> first | rfl | omega
  | track a =>
      have := raw_lt a
      cases right with
      | track b => exact congrArg _ (raw_ext _ _ (by simpa [rank] using h))
      | _ => simp only [rank] at h; omega
  | object a =>
      have := a.rank_lt
      cases right with
      | object b => exact congrArg _ (EditorialObjectId.rank_injective (by simpa [rank] using h))
      | track b => have := raw_lt b; simp only [rank] at h; omega
      | _ => simp only [rank] at h; omega
  | marker a =>
      have := raw_lt a
      cases right with
      | marker b => exact congrArg _ (raw_ext _ _ (by simpa [rank] using h))
      | track b => have := raw_lt b; simp only [rank] at h; omega
      | object b => have := b.rank_lt; simp only [rank] at h; omega
      | timeline => simp only [rank] at h; omega

instance : Ord MetadataOwner := ⟨compareOn rank⟩

instance : Std.TransOrd MetadataOwner :=
  inferInstanceAs (Std.TransCmp (compareOn rank))

instance : Std.LawfulEqOrd MetadataOwner :=
  Keyed.lawfulEqCmp_compareOn fun _ _ => rank_injective

end MetadataOwner

/-- One exact, recursively nestable metadata value.  A float is its canonical bit pattern. -/
inductive MetadataValue
  | null
  | boolean (value : Bool)
  | signed (value : Int)
  | unsigned (value : Nat)
  | float (bits : BitVec 64)
  | text (value : String)
  | time (value : RationalTime)
  | range (value : TimeRange)
  | list (values : List MetadataValue)
  | map (entries : List (String × MetadataValue))

mutual

/-- Equality of values, with the values nested in them. -/
def MetadataValue.same : MetadataValue → MetadataValue → Bool
  | .null, .null => true
  | .boolean a, .boolean b => a == b
  | .signed a, .signed b => a == b
  | .unsigned a, .unsigned b => a == b
  | .float a, .float b => a == b
  | .text a, .text b => a == b
  | .time a, .time b => a == b
  | .range a, .range b => a == b
  | .list as, .list bs => sameValues as bs
  | .map as, .map bs => sameEntries as bs
  | _, _ => false

def MetadataValue.sameValues : List MetadataValue → List MetadataValue → Bool
  | [], [] => true
  | a :: as, b :: bs => a.same b && sameValues as bs
  | _, _ => false

def MetadataValue.sameEntries :
    List (String × MetadataValue) → List (String × MetadataValue) → Bool
  | [], [] => true
  | (key, a) :: as, (key', b) :: bs => key == key' && a.same b && sameEntries as bs
  | _, _ => false

end

mutual

theorem MetadataValue.same_iff (a b : MetadataValue) : a.same b = true ↔ a = b := by
  cases a with
  | list as => cases b <;> simp [same, sameValues_iff as]
  | map as => cases b <;> simp [same, sameEntries_iff as]
  | _ => cases b <;> simp [same]

theorem MetadataValue.sameValues_iff (as bs : List MetadataValue) :
    sameValues as bs = true ↔ as = bs := by
  match as, bs with
  | [], [] => simp [sameValues]
  | a :: as, b :: bs => simp [sameValues, same_iff a b, sameValues_iff as bs]
  | [], _ :: _ | _ :: _, [] => simp [sameValues]

theorem MetadataValue.sameEntries_iff (as bs : List (String × MetadataValue)) :
    sameEntries as bs = true ↔ as = bs := by
  match as, bs with
  | [], [] => simp [sameEntries]
  | (key, a) :: as, (key', b) :: bs => simp [sameEntries, same_iff a b, sameEntries_iff as bs]
  | [], _ :: _ | _ :: _, [] => simp [sameEntries]

end

instance : DecidableEq MetadataValue := fun a b =>
  decidable_of_iff (a.same b = true) (MetadataValue.same_iff a b)

/-- A metadata map, as its entries in key order. -/
abbrev TimelineMetadata := List (String × MetadataValue)

inductive MarkerFlag
  | red
  | pink
  | orange
  | yellow
  | green
  | cyan
  | blue
  | purple
  | magenta
  | black
  | white
  deriving DecidableEq, Repr

/-- One marker with its owner and visible semantics. -/
structure Marker where
  id : MarkerId
  owner : MarkerOwner
  markedRange : TimeRange
  label : Option String
  flag : Option MarkerFlag
  note : Option String
  metadata : TimelineMetadata

/-- Annotation state published with the editorial snapshot. -/
structure TimelineAnnotations where
  snappingEnabled : Bool
  markers : Std.ExtTreeMap MarkerId Marker
  metadata : Std.ExtTreeMap MetadataOwner TimelineMetadata

/-! ## Owners -/

def findObject (tracks : List Track) (id : EditorialObjectId) : Option (Track × TrackItem) :=
  tracks.findSome? fun track => (track.item id).map fun item => (track, item)

def ownerClock (owner : MarkerOwner) (editRate : Timebase) (tracks : List Track) :
    Option Timebase :=
  match owner with
  | .timeline => some editRate
  | .track trackId => (tracks.find? fun track => track.id = trackId).map Track.timebase
  | .object object =>
      (findObject tracks object).bind fun (track, item) =>
        item.recordRange.map fun _ => track.timebase

def markerOwnerExists (owner : MarkerOwner) (tracks : List Track) : Bool :=
  match owner with
  | .timeline => true
  | .track trackId => tracks.any fun track => track.id = trackId
  | .object object => (findObject tracks object).isSome

def metadataOwnerExists (owner : MetadataOwner) (tracks : List Track)
    (markers : Std.ExtTreeMap MarkerId Marker) : Bool :=
  match owner with
  | .timeline => true
  | .track trackId => tracks.any fun track => track.id = trackId
  | .object object => (findObject tracks object).isSome
  | .marker markerId => decide (markerId ∈ markers)

def validateMarker (marker : Marker) (editRate : Timebase) (tracks : List Track) :
    Except Error Unit := do
  let clock ← okOr (ownerClock marker.owner editRate tracks)
    (notFoundMarker "validate_marker" "marker owner was not found")
  rejectIf (marker.markedRange.timebase ≠ clock)
    (invalidMarker "validate_marker" "marker range must use its owner's exact record clock")
  rejectIf (marker.markedRange.start.isNegative = true)
    (invalidMarker "validate_marker" "marker range must not start before its owner zero")

def validateMetadataOwner (owner : MetadataOwner) (tracks : List Track)
    (markers : Std.ExtTreeMap MarkerId Marker) : Except Error Unit :=
  rejectIf (metadataOwnerExists owner tracks markers = false)
    (notFoundMarker "validate_metadata_owner" "metadata owner was not found")

/-! ## The state -/

namespace TimelineAnnotations

/-- The annotations of a new timeline. -/
def default : TimelineAnnotations where
  snappingEnabled := true
  markers := ∅
  metadata := ∅

/-- The metadata of one owner; a marker keeps its own map. -/
def metadataOf (annotations : TimelineAnnotations) (owner : MetadataOwner) :
    Option TimelineMetadata :=
  match owner with
  | .marker id => annotations.markers[id]?.map Marker.metadata
  | owner => annotations.metadata[owner]?

def setMetadata (annotations : TimelineAnnotations) (owner : MetadataOwner)
    (metadata : TimelineMetadata) (tracks : List Track) : Except Error TimelineAnnotations := do
  validateMetadataOwner owner tracks annotations.markers
  match owner with
  | .marker id =>
      pure { annotations with
        markers := annotations.markers.modify id fun marker => { marker with metadata } }
  | owner => pure { annotations with metadata := annotations.metadata.insert owner metadata }

/-- Drop the markers and the metadata whose owner is gone. -/
def reconcile (annotations : TimelineAnnotations) (tracks : List Track) : TimelineAnnotations :=
  let markers := annotations.markers.filter fun _ marker => markerOwnerExists marker.owner tracks
  { annotations with
    markers
    metadata := annotations.metadata.filter fun owner _ =>
      metadataOwnerExists owner tracks markers }

/-- Validate the annotations of one timeline, threading the marker identities of the project. -/
def validate (annotations : TimelineAnnotations) (editRate : Timebase) (tracks : List Track)
    (markerIds : Finset MarkerId) : Except Error (Finset MarkerId) := do
  let markerIds ← annotations.markers.toList.foldlM (fun markerIds (_, marker) => do
    rejectIf (marker.id ∈ markerIds) (conflictMarker "validate_markers" "duplicate marker identity")
    validateMarker marker editRate tracks
    pure (insert marker.id markerIds)) markerIds
  annotations.metadata.keys.forM fun owner =>
    validateMetadataOwner owner tracks annotations.markers
  pure markerIds

end TimelineAnnotations

end Editorial
end Superi

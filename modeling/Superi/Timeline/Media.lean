import Superi.Lib.Keyed
import Superi.Timeline.Markers

/-!
# Media — linked media and its organization

Linked media references with their relink evidence, manual bins and saved queries, as far as the
validation of a project and the commands on one reference read them.  No timeline edit changes any
of it.
-/

namespace Superi
namespace Editorial

open Core Result Keyed

/-- Errors of `media.rs`. -/
def invalidMedia (operation message : String) : Error :=
  (Error.new .invalidInput .userCorrectable message).withContext
    ⟨"superi-timeline.media", operation⟩

def notFoundMedia (operation message : String) : Error :=
  (Error.new .notFound .userCorrectable message).withContext
    ⟨"superi-timeline.media", operation⟩

def conflictMedia (operation message : String) : Error :=
  (Error.new .conflict .userCorrectable message).withContext
    ⟨"superi-timeline.media", operation⟩

/-- Control characters, general category Cc. -/
def isControl (c : Char) : Bool :=
  decide (c.toNat < 32) || (decide (127 ≤ c.toNat) && decide (c.toNat < 160))

/-- Blank text and text with control characters are refused, in two frames of the same
operation. -/
def requireVisibleText (operation value : String) : Except Error Unit :=
  rejectIf (isBlank value = true ∨ value.toList.any isControl = true)
    ((invalidMedia operation "editorial text must be nonblank visible text").withContext
      ⟨"superi-timeline.media", operation⟩)

/-! ## Linked media -/

inductive RelinkStatus
  | online
  | missing
  | unverified
  | fingerprintMismatch
  deriving DecidableEq, Repr

structure MediaRelinkState where
  status : RelinkStatus
  expectedFingerprint : Option String
  observedFingerprint : Option String
  rejectedTarget : Option String
  deriving DecidableEq, Repr

def MediaRelinkState.validate (state : MediaRelinkState) : Except Error Unit := do
  state.expectedFingerprint.toList.forM (requireVisibleText "validate_relink_state")
  state.observedFingerprint.toList.forM (requireVisibleText "validate_relink_state")
  state.rejectedTarget.toList.forM (requireVisibleText "validate_relink_state")
  if state.status = .fingerprintMismatch then do
    let expected ← okOr state.expectedFingerprint
      (invalidMedia "validate_relink_state"
        "fingerprint mismatch state requires an expected fingerprint")
    let observed ← okOr state.observedFingerprint
      (invalidMedia "validate_relink_state"
        "fingerprint mismatch state requires an observed fingerprint")
    rejectIf (expected = observed ∨ state.rejectedTarget = none)
      (invalidMedia "validate_relink_state"
        "fingerprint mismatch state requires distinct evidence and a rejected target")
  else pure ()

/-- A media resource linked into an editorial project. -/
structure LinkedMediaReference where
  id : MediaId
  name : String
  target : String
  availableRange : Option TimeRange
  metadata : TimelineMetadata
  relinkState : MediaRelinkState
  deriving DecidableEq

/-- The result of checking one relink candidate. -/
inductive RelinkDecision
  | accepted
  | rejectedFingerprintMismatch
  deriving DecidableEq, Repr

namespace LinkedMediaReference

def validate (media : LinkedMediaReference) : Except Error Unit := do
  requireVisibleText "validate_media" media.name
  requireVisibleText "validate_media" media.target
  media.relinkState.validate

/-- Replace the locator without claiming that content identity was checked. -/
def setTarget (media : LinkedMediaReference) (target : String) : LinkedMediaReference :=
  { media with
    target
    relinkState := { media.relinkState with
      status := .unverified
      observedFingerprint := none
      rejectedTarget := none } }

/-- Mark the active locator unavailable. -/
def markMissing (media : LinkedMediaReference) : LinkedMediaReference :=
  { media with
    relinkState := { media.relinkState with
      status := .missing
      observedFingerprint := none
      rejectedTarget := none } }

/-- Check a candidate locator, and make it the active one only when identity matches. -/
def considerRelink (media : LinkedMediaReference) (candidateTarget observedFingerprint : String) :
    Except Error (LinkedMediaReference × RelinkDecision) := do
  requireVisibleText "consider_relink" candidateTarget
  requireVisibleText "consider_relink" observedFingerprint
  if (media.relinkState.expectedFingerprint.any fun expected =>
      decide (expected ≠ observedFingerprint)) = true then
    pure ({ media with
      relinkState := { media.relinkState with
        status := .fingerprintMismatch
        observedFingerprint := some observedFingerprint
        rejectedTarget := some candidateTarget } }, .rejectedFingerprintMismatch)
  else
    pure ({ media with
      target := candidateTarget
      relinkState := {
        status := .online
        expectedFingerprint :=
          some (media.relinkState.expectedFingerprint.getD observedFingerprint)
        observedFingerprint := some observedFingerprint
        rejectedTarget := none } }, .accepted)

end LinkedMediaReference

/-! ## The library -/

structure MediaBin where
  id : BinId
  name : String
  parent : Option BinId
  mediaIds : List MediaId
  deriving DecidableEq, Repr

inductive SmartCollectionMatch
  | all
  | any
  deriving DecidableEq, Repr

inductive MediaPredicate
  | nameContains (value : String)
  | targetContains (value : String)
  | metadataExists (key : String)
  | metadataEquals (key : String) (value : MetadataValue)
  | relinkStatus (status : RelinkStatus)

def MediaPredicate.validate : MediaPredicate → Except Error Unit
  | nameContains value | targetContains value =>
      requireVisibleText "validate_smart_collection" value
  | _ => pure ()

structure SmartCollection where
  id : SmartCollectionId
  name : String
  matchMode : SmartCollectionMatch
  predicates : List MediaPredicate

def SmartCollection.validate (collection : SmartCollection) : Except Error Unit := do
  requireVisibleText "validate_smart_collection" collection.name
  rejectIf (collection.predicates.isEmpty = true)
    (invalidMedia "validate_smart_collection"
      "smart collection must contain at least one predicate")
  collection.predicates.forM MediaPredicate.validate

structure MediaLibrary where
  bins : Std.ExtTreeMap BinId MediaBin
  smartCollections : Std.ExtTreeMap SmartCollectionId SmartCollection

namespace MediaLibrary

/-- Walk from a bin to its root, refusing a bin that comes up twice. -/
def binPathFrom (library : MediaLibrary) (current : Option BinId) (seen : Finset BinId) :
    Except Error (List BinId) :=
  match current with
  | none => pure []
  | some binId =>
      if binId ∈ seen then
        .error (conflictMedia "resolve_bin_path" "media bin nesting contains a cycle")
      else if hbin : binId ∈ library.bins then do
        let path ← binPathFrom library library.bins[binId].parent (insert binId seen)
        pure (path ++ [binId])
      else .error (notFoundMedia "resolve_bin_path" "media bin parent was not found")
termination_by (library.bins.keys.toFinset \ seen).card
decreasing_by
  rename_i hnew
  have hin : binId ∈ library.bins.keys.toFinset := by simpa using hbin
  refine Finset.card_lt_card ⟨Finset.sdiff_subset_sdiff (Finset.Subset.refl _)
    (Finset.subset_insert _ _), fun hback => ?_⟩
  simpa using hback (Finset.mem_sdiff.2 ⟨hin, hnew⟩)

/-- The root-to-leaf identity path of a bin. -/
def binPath (library : MediaLibrary) (id : BinId) : Except Error (List BinId) :=
  library.binPathFrom (some id) ∅

def validateBin (library : MediaLibrary) (bin : MediaBin) : Except Error Unit := do
  requireVisibleText "validate_bin" bin.name
  rejectIf (bin.parent = some bin.id)
    (conflictMedia "validate_bin" "media bin cannot be its own parent")
  let _ ← library.binPath bin.id
  pure ()

/-- One member of a bin against the members of the bins before it. -/
def assignMedia (media : Std.ExtTreeMap MediaId LinkedMediaReference)
    (assigned : Finset MediaId) (id : MediaId) : Except Error (Finset MediaId) := do
  rejectIf (id ∉ media) (notFoundMedia "validate_bin" "media bin references missing linked media")
  rejectIf (id ∈ assigned)
    (conflictMedia "validate_bin" "linked media belongs to more than one manual bin")
  pure (insert id assigned)

def validate (library : MediaLibrary) (media : Std.ExtTreeMap MediaId LinkedMediaReference) :
    Except Error Unit := do
  (valuesOf library.bins).forM library.validateBin
  let _ ← ((valuesOf library.bins).flatMap MediaBin.mediaIds).foldlM (assignMedia media) ∅
  (valuesOf library.smartCollections).forM SmartCollection.validate

end MediaLibrary

end Editorial
end Superi

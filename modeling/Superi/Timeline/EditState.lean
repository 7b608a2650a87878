import Superi.Timeline.Validate

/-!
# EditState — selection, track intent and clip relationships of a timeline

Command state that lives beside the tracks of a timeline and is published with them: the selected
objects, one record of lane intent per track, and the link and group components of its clips.
-/

namespace Superi
namespace Editorial

open Core Result

/-- Errors of `edit_state.rs`. -/
def invalidState (operation message : String) : Error :=
  (Error.new .invalidInput .userCorrectable message).withContext
    ⟨"superi-timeline.edit-state", operation⟩

def notFoundState (operation message : String) : Error :=
  (Error.new .notFound .userCorrectable message).withContext
    ⟨"superi-timeline.edit-state", operation⟩

def defaultTrackHeight : Nat := 72
def minTrackHeight : Nat := 48
def maxTrackHeight : Nat := 320

/-- Command intent attached to one track. -/
structure TrackEditState where
  trackId : TrackId
  height : Nat
  targeted : Bool
  locked : Bool
  syncLocked : Bool
  muted : Bool
  solo : Bool
  enabled : Bool
  deriving DecidableEq, Repr

def TrackEditState.new (trackId : TrackId) : TrackEditState where
  trackId
  height := defaultTrackHeight
  targeted := false
  locked := false
  syncLocked := true
  muted := false
  solo := false
  enabled := true

/-- One relationship component, addressed through any member clip. -/
structure ClipRelation where
  members : Std.ExtTreeSet ClipId
  deriving DecidableEq, Repr

structure TimelineEditState where
  selectedObjects : Std.ExtTreeSet EditorialObjectId
  trackStates : Std.ExtTreeMap TrackId TrackEditState
  linkedSelectionEnabled : Bool
  links : List ClipRelation
  groups : List ClipRelation
  deriving DecidableEq, Repr

/-! ## The identities of a timeline -/

def trackIdsOf (tracks : List Track) : Finset TrackId :=
  (tracks.map Track.id).toFinset

def objectIdsOf (tracks : List Track) : Finset EditorialObjectId :=
  (tracks.flatMap Track.objectIds).toFinset

def EditorialObjectId.asClip : EditorialObjectId → Option ClipId
  | .clip id => some id
  | _ => none

def clipIdsOf (tracks : List Track) : Finset ClipId :=
  ((tracks.flatMap Track.objectIds).filterMap EditorialObjectId.asClip).toFinset

@[simp] theorem mem_trackIdsOf {tracks : List Track} {id : TrackId} :
    id ∈ trackIdsOf tracks ↔ ∃ track ∈ tracks, track.id = id := by
  simp [trackIdsOf]

@[simp] theorem mem_objectIdsOf {tracks : List Track} {id : EditorialObjectId} :
    id ∈ objectIdsOf tracks ↔ ∃ track ∈ tracks, id ∈ track.objectIds := by
  simp [objectIdsOf]

@[simp] theorem EditorialObjectId.asClip_eq_some {object : EditorialObjectId} {id : ClipId} :
    object.asClip = some id ↔ object = .clip id := by
  cases object <;> simp [asClip]

@[simp] theorem mem_clipIdsOf {tracks : List Track} {id : ClipId} :
    id ∈ clipIdsOf tracks ↔ ∃ track ∈ tracks, .clip id ∈ track.objectIds := by
  simp [clipIdsOf]

/-! ## Relationship components -/

def relationFor (relations : List ClipRelation) (clipId : ClipId) : Option ClipRelation :=
  relations.find? fun relation => clipId ∈ relation.members

/-- The two components have no common member. -/
def ClipRelation.isDisjoint (relation : ClipRelation) (members : Std.ExtTreeSet ClipId) : Bool :=
  relation.members.toList.all fun id => decide (id ∉ members)

/-- Canonical order: lexicographic in the ordered members. -/
def sortRelations (relations : List ClipRelation) : List ClipRelation :=
  relations.insertionSort fun left right =>
    (compare left.members.toList right.members.toList).isLE = true

/-- Merge every component that meets `members` into one.  Components are absorbed from the left,
so a later one is compared with everything absorbed before it. -/
def mergeRelation (relations : List ClipRelation) (members : Std.ExtTreeSet ClipId) :
    List ClipRelation :=
  let merged := relations.foldl
    (fun (acc : List ClipRelation × Std.ExtTreeSet ClipId) relation =>
      if relation.isDisjoint acc.2 then (acc.1 ++ [relation], acc.2)
      else (acc.1, acc.2.insertMany relation.members.toList))
    ([], members)
  sortRelations (merged.1 ++ [⟨merged.2⟩])

/-- Keep the members that satisfy `keep`, and the components that still have two of them. -/
def restrictRelations (relations : List ClipRelation) (keep : ClipId → Bool) : List ClipRelation :=
  sortRelations
    ((relations.map fun relation => (⟨relation.members.filter keep⟩ : ClipRelation)).filter
      fun relation => 2 ≤ relation.members.size)

def removeRelationMembers (relations : List ClipRelation) (clips : Std.ExtTreeSet ClipId) :
    List ClipRelation :=
  restrictRelations relations fun id => decide (id ∉ clips)

def reconcileRelations (relations : List ClipRelation) (clipIds : Finset ClipId) :
    List ClipRelation :=
  restrictRelations relations fun id => decide (id ∈ clipIds)

def replaceRelationMember (relations : List ClipRelation) (removed inserted : ClipId) :
    List ClipRelation :=
  sortRelations (relations.map fun relation =>
    if removed ∈ relation.members then ⟨(relation.members.erase removed).insert inserted⟩
    else relation)

def requireRelationshipSize (operation : String) (members : Std.ExtTreeSet ClipId) :
    Except Error Unit :=
  rejectIf (members.size < 2)
    (invalidState operation "a clip relationship requires at least two distinct clips")

/-- One member against the members claimed before it. -/
def claimMember (operation : String) (clipIds claimed : Finset ClipId) (clipId : ClipId) :
    Except Error (Finset ClipId) := do
  rejectIf (clipId ∉ clipIds)
    (notFoundState operation "clip relationship references a missing clip")
  rejectIf (clipId ∈ claimed)
    (invalidState operation
      "one clip cannot belong to multiple components of the same relationship")
  pure (insert clipId claimed)

def validateRelation (operation : String) (clipIds claimed : Finset ClipId)
    (relation : ClipRelation) : Except Error (Finset ClipId) := do
  requireRelationshipSize operation relation.members
  relation.members.toList.foldlM (claimMember operation clipIds) claimed

def validateRelations (operation : String) (relations : List ClipRelation)
    (clipIds : Finset ClipId) : Except Error Unit := do
  let _ ← relations.foldlM (validateRelation operation clipIds) ∅
  pure ()

def checkedClips (operation : String) (clips : List ClipId) (tracks : List Track) :
    Except Error (Std.ExtTreeSet ClipId) := do
  rejectIf (∃ clipId ∈ clips, clipId ∉ clipIdsOf tracks)
    (notFoundState operation "editorial clip was not found")
  pure (.ofList clips)

/-! ## The state -/

inductive SelectionUpdate
  | replace
  | add
  | remove
  deriving DecidableEq, Repr

/-- Whether a selection follows authored relationships or addresses exact objects. -/
inductive SelectionExpansion
  | related
  | direct
  deriving DecidableEq, Repr

namespace TimelineEditState

def fromTracks (tracks : List Track) : TimelineEditState where
  selectedObjects := ∅
  trackStates := .ofList (tracks.map fun track => (track.id, TrackEditState.new track.id))
  linkedSelectionEnabled := true
  links := []
  groups := []

def trackState (state : TimelineEditState) (trackId : TrackId) : Option TrackEditState :=
  state.trackStates[trackId]?

def linkFor (state : TimelineEditState) (clipId : ClipId) : Option ClipRelation :=
  relationFor state.links clipId

def groupFor (state : TimelineEditState) (clipId : ClipId) : Option ClipRelation :=
  relationFor state.groups clipId

/-- The clips one step away from `clipId`: its group and, when enabled, its link. -/
def relatedTo (state : TimelineEditState) (clipId : ClipId) : List ClipId :=
  (state.groupFor clipId).toList.flatMap (fun relation => relation.members.toList) ++
    if state.linkedSelectionEnabled then
      (state.linkFor clipId).toList.flatMap fun relation => relation.members.toList
    else []

/-- Every clip that belongs to some component. -/
def relatedClips (state : TimelineEditState) : Finset ClipId :=
  ((state.groups ++ state.links).flatMap fun relation => relation.members.toList).toFinset

theorem mem_members_of_relationFor {relations : List ClipRelation} {clipId : ClipId}
    {relation : ClipRelation} (h : relationFor relations clipId = some relation) :
    relation ∈ relations ∧ clipId ∈ relation.members :=
  ⟨List.mem_of_find?_eq_some h, by simpa using List.find?_some h⟩

theorem mem_relatedClips_of_relatedTo {state : TimelineEditState} {clipId : ClipId}
    (h : state.relatedTo clipId ≠ []) : clipId ∈ state.relatedClips := by
  have hmem : ∀ relations : List ClipRelation,
      (∀ relation ∈ relations, relation ∈ state.groups ++ state.links) →
      ∀ relation, relationFor relations clipId = some relation → clipId ∈ state.relatedClips := by
    intro relations hsub relation hfound
    obtain ⟨hin, hclip⟩ := mem_members_of_relationFor hfound
    simp only [relatedClips, List.mem_toFinset, List.mem_flatMap]
    exact ⟨relation, hsub relation hin, Std.ExtTreeSet.mem_toList.2 hclip⟩
  cases hgroup : state.groupFor clipId with
  | some relation =>
      exact hmem state.groups (fun _ hr => List.mem_append_left _ hr) relation hgroup
  | none =>
      cases hlink : state.linkFor clipId with
      | some relation =>
          exact hmem state.links (fun _ hr => List.mem_append_right _ hr) relation hlink
      | none => simp [relatedTo, hgroup, hlink] at h

/-- Follow relationships from the pending clips until nothing new is reached.  The head of
`pending` is the top of the source's stack. -/
def expandPending (state : TimelineEditState) (pending : List ClipId)
    (visited : Std.ExtTreeSet ClipId) : Std.ExtTreeSet ClipId :=
  match pending with
  | [] => visited
  | clipId :: rest =>
      if clipId ∈ visited then expandPending state rest visited
      else
        expandPending state
          (((state.relatedTo clipId).filter fun member => member ∉ visited.insert clipId).reverse ++
            rest)
          (visited.insert clipId)
termination_by ((state.relatedClips.filter fun member => member ∉ visited).card, pending.length)
decreasing_by
  · exact Prod.Lex.right _ (Nat.lt_succ_self _)
  · rename_i hnew
    have hsub : (state.relatedClips.filter fun member => member ∉ visited.insert clipId) ⊆
        state.relatedClips.filter fun member => member ∉ visited := by
      intro member hmem
      simp only [Finset.mem_filter, Std.ExtTreeSet.mem_insert, not_or] at hmem ⊢
      exact ⟨hmem.1, hmem.2.2⟩
    by_cases hnone : state.relatedTo clipId = []
    · -- nothing is pushed, so only the stack shrinks
      rcases (Finset.card_le_card hsub).lt_or_eq with hlt | heq
      · exact Prod.Lex.left _ _ hlt
      · rw [heq]
        refine Prod.Lex.right _ ?_
        simp [hnone]
    · refine Prod.Lex.left _ _ (Finset.card_lt_card ⟨hsub, fun hback => ?_⟩)
      have := hback (Finset.mem_filter.2 ⟨mem_relatedClips_of_relatedTo hnone, hnew⟩)
      simp at this

def expandSelection (state : TimelineEditState) (requested : Std.ExtTreeSet EditorialObjectId) :
    Std.ExtTreeSet EditorialObjectId :=
  let pending := requested.toList.filterMap EditorialObjectId.asClip
  requested.insertMany
    ((state.expandPending pending.reverse ∅).toList.map EditorialObjectId.clip)

def updateSelection (state : TimelineEditState) (objects : List EditorialObjectId)
    (update : SelectionUpdate) (expansion : SelectionExpansion) (tracks : List Track) :
    Except Error TimelineEditState := do
  rejectIf (∃ object ∈ objects, object ∉ objectIdsOf tracks)
    (notFoundState "update_selection" "editorial object was not found")
  let requested := Std.ExtTreeSet.ofList objects
  let expanded := match expansion with
    | .direct => requested
    | .related => state.expandSelection requested
  pure { state with
    selectedObjects := match update with
      | .replace => expanded
      | .add => state.selectedObjects.insertMany expanded.toList
      | .remove => state.selectedObjects.filter fun object => object ∉ expanded }

/-- Link clips; a group that meets the merged link absorbs it. -/
def linkClips (state : TimelineEditState) (clips : List ClipId) (tracks : List Track) :
    Except Error TimelineEditState := do
  let members ← checkedClips "link_clips" clips tracks
  requireRelationshipSize "link_clips" members
  let links := mergeRelation state.links members
  -- the merged component contains each requested clip, the first of them included
  let linkedMembers := ((members.toList.head?.bind (relationFor links)).map
    ClipRelation.members).getD members
  pure { state with
    links
    groups :=
      if state.groups.any fun group => !group.isDisjoint linkedMembers then
        mergeRelation state.groups linkedMembers
      else state.groups }

def unlinkClips (state : TimelineEditState) (clips : List ClipId) (tracks : List Track) :
    Except Error TimelineEditState := do
  let clips ← checkedClips "unlink_clips" clips tracks
  pure { state with links := removeRelationMembers state.links clips }

def groupClips (state : TimelineEditState) (clips : List ClipId) (tracks : List Track) :
    Except Error TimelineEditState := do
  let checked ← checkedClips "group_clips" clips tracks
  let linkedMembers := (checked.toList.filterMap state.linkFor).flatMap fun relation =>
    relation.members.toList
  let members := checked.insertMany linkedMembers
  requireRelationshipSize "group_clips" members
  pure { state with groups := mergeRelation state.groups members }

def ungroupClips (state : TimelineEditState) (clips : List ClipId) (tracks : List Track) :
    Except Error TimelineEditState := do
  let clips ← checkedClips "ungroup_clips" clips tracks
  pure { state with groups := state.groups.filter fun relation => relation.isDisjoint clips }

/-- The lane intent of one track is within its bounds. -/
def validateTrackState (state : TimelineEditState) (track : Track) : Except Error Unit :=
  match state.trackState track.id with
  -- coverage was checked before
  | none => pure ()
  | some lane => do
      rejectIf (¬ (minTrackHeight ≤ lane.height ∧ lane.height ≤ maxTrackHeight))
        (invalidState "validate_edit_state"
          "track height is outside the supported editor lane bounds")
      rejectIf (track.kind ≠ .audio ∧ (lane.muted = true ∨ lane.solo = true))
        (invalidState "validate_edit_state"
          "mute and solo state is supported only for audio tracks")

def validate (state : TimelineEditState) (tracks : List Track) : Except Error Unit := do
  rejectIf (state.trackStates.size ≠ (trackIdsOf tracks).card ∨
      ∃ trackId ∈ state.trackStates.keys, trackId ∉ trackIdsOf tracks)
    (invalidState "validate_edit_state"
      "track edit state must cover every timeline track exactly once")
  tracks.forM (state.validateTrackState)
  rejectIf (∃ object ∈ state.selectedObjects.toList, object ∉ objectIdsOf tracks)
    (notFoundState "validate_edit_state" "selection references a missing editorial object")
  validateRelations "validate_links" state.links (clipIdsOf tracks)
  validateRelations "validate_groups" state.groups (clipIdsOf tracks)

/-- Move the selection and the relationships of a removed clip to the clip that replaces it. -/
def transferClipIntent (state : TimelineEditState) (removed inserted : ClipId)
    (tracks : List Track) : Except Error TimelineEditState := do
  let transferred := { state with
    selectedObjects :=
      if .clip removed ∈ state.selectedObjects then
        (state.selectedObjects.erase (.clip removed)).insert (.clip inserted)
      else state.selectedObjects
    links := replaceRelationMember state.links removed inserted
    groups := replaceRelationMember state.groups removed inserted }
  transferred.validate tracks
  pure transferred

/-- Drop what refers to objects the tracks no longer have, and give new tracks a fresh record. -/
def reconcile (state : TimelineEditState) (tracks : List Track) : TimelineEditState :=
  let kept := state.trackStates.filter fun trackId _ => trackId ∈ trackIdsOf tracks
  { state with
    trackStates := tracks.foldl
      (fun states track => states.insertIfNew track.id (TrackEditState.new track.id)) kept
    selectedObjects := state.selectedObjects.filter fun object => object ∈ objectIdsOf tracks
    links := reconcileRelations state.links (clipIdsOf tracks)
    groups := reconcileRelations state.groups (clipIdsOf tracks) }

end TimelineEditState

end Editorial
end Superi

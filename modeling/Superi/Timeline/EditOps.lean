import Superi.Timeline.EditItems

/-!
# EditOps — the editing operations on one track

One definition for each operation of `edit_ops.rs` that works on a single track.  Every operation
separates timed items from transitions, rewrites the timed list, and re-threads the transitions.
A failed operation returns no track, so nothing is published.
-/

namespace Superi
namespace Editorial

open Core Result Sequence

/-- Everything an outcome reports beside its kind and place. -/
structure EditReport where
  affectedRange : TimeRange
  durationChange : TrackDurationChange := .unchanged
  insertedIds : List EditorialObjectId := []
  removedIds : List EditorialObjectId := []
  modifiedIds : List EditorialObjectId := []
  fragments : List EditFragment := []

/-- Re-thread the transitions of `track` through `timed` and report the edit. -/
def finishEdit (track : Track) (timelineId : TimelineId) (trackId : TrackId) (kind : EditKind)
    (timed : List TimedItem) (report : Except Error EditReport) : Except Error TrackEdit := do
  let (items, removedTransitions) ← rebuildWithTransitions timed (transitionsOf track.items)
  let report ← report
  pure (track.replaceItems items, {
    kind, timelineId, trackId
    affectedRange := report.affectedRange
    durationChange := report.durationChange
    insertedIds := report.insertedIds
    removedIds := report.removedIds
    modifiedIds := report.modifiedIds
    fragments := report.fragments
    removedTransitions
    synchronizedTracks := [] })

/-- The accumulators of the two loops that cut items: the items kept so far, the unread fragment
identities, and the identities to report. -/
structure EditScan where
  output : List TimedItem
  fragmentIds : List EditorialObjectId
  removedIds : List EditorialObjectId
  modifiedIds : List EditorialObjectId
  created : List EditFragment

def EditScan.start (fragmentIds : List EditorialObjectId) : EditScan :=
  { output := [], fragmentIds, removedIds := [], modifiedIds := [], created := [] }

/-! ## Insert, overwrite, append, replace -/

/-- One item of the insert loop: split it at `at'`, move it right, or keep it. -/
def insertStep (at' : RationalTime) (duration : Duration) (timebase : Timebase) (scan : EditScan)
    (item : TimedItem) : Except Error EditScan :=
  if item.recordRange.start < at' ∧ at' < item.recordRange.endExclusive then do
    let left ← sliceItem item item.recordRange.start at' item.id "insert"
    let (rightId, fragmentIds) ← nextFragment scan.fragmentIds item.id "insert"
    let right ← sliceItem item at' item.recordRange.endExclusive rightId "insert"
    let right ← shiftItemRight right duration timebase
    pure { scan with
      output := scan.output ++ [left, right]
      fragmentIds
      modifiedIds := pushUnique (pushUnique scan.modifiedIds item.id) rightId
      created := scan.created ++ [⟨item.id, rightId⟩] }
  else if at' ≤ item.recordRange.start then do
    let shifted ← shiftItemRight item duration timebase
    pure { scan with
      output := scan.output ++ [shifted]
      modifiedIds := pushUnique scan.modifiedIds item.id }
  else
    pure { scan with output := scan.output ++ [item] }

def applyInsert (track : Track) (timelineId : TimelineId) (trackId : TrackId) (at' : RationalTime)
    (material : TrackItem) (fragmentIds : List EditorialObjectId) : Except Error TrackEdit := do
  let timebase := track.timebase
  validatePointClock at' timebase "insert"
  rejectIf (at'.isNegative = true ∨ trackEnd track < at')
    (invalidEdit "insert" "insert point must lie between track start and track end")
  let material ← normalizeMaterial material at' timebase "insert"
  let materialDuration := material.recordRange.duration
  let affectedRange ← TimeRange.new at' materialDuration
  let scan ← (timedItems track.items).foldlM (insertStep at' materialDuration timebase)
    (EditScan.start fragmentIds)
  finishFragments scan.fragmentIds "insert"
  finishEdit track timelineId trackId .insert (sortTimed (scan.output ++ [material])) (pure {
    affectedRange
    durationChange := .extended materialDuration
    insertedIds := [material.id]
    modifiedIds := scan.modifiedIds
    fragments := scan.created })

/-- The part of an item left of the replaced range. -/
def keepLeft (range : TimeRange) (item : TimedItem) (operation : String) (scan : EditScan) :
    Except Error EditScan :=
  if item.recordRange.start < range.start then do
    let left ← sliceItem item item.recordRange.start range.start item.id operation
    pure { scan with
      output := scan.output ++ [left]
      modifiedIds := pushUnique scan.modifiedIds item.id }
  else
    pure scan

/-- The identity of the part right of the replaced range: a fragment when the left part keeps the
original one. -/
def rightIdentity (range : TimeRange) (item : TimedItem) (operation : String) (scan : EditScan) :
    Except Error (EditorialObjectId × EditScan) :=
  if item.recordRange.start < range.start then do
    let (created, fragmentIds) ← nextFragment scan.fragmentIds item.id operation
    pure (created, { scan with
      fragmentIds
      created := scan.created ++ [⟨item.id, created⟩] })
  else
    pure (item.id, scan)

/-- Move what lies right of the replaced range left when the range is closed. -/
def closeRight (range : TimeRange) (closeRange : Bool) (timebase : Timebase) (item : TimedItem) :
    Except Error TimedItem :=
  if closeRange then shiftItemLeft item range.duration timebase else pure item

/-- The part of an item right of the replaced range. -/
def keepRight (range : TimeRange) (closeRange : Bool) (timebase : Timebase) (item : TimedItem)
    (operation : String) (scan : EditScan) : Except Error EditScan :=
  if range.endExclusive < item.recordRange.endExclusive then do
    let (rightId, scan) ← rightIdentity range item operation scan
    let right ← sliceItem item range.endExclusive item.recordRange.endExclusive rightId operation
    let right ← closeRight range closeRange timebase right
    pure { scan with
      output := scan.output ++ [right]
      modifiedIds := pushUnique scan.modifiedIds rightId }
  else
    pure scan

/-- One item of the range-replacement loop. -/
def replacementStep (range : TimeRange) (closeRange : Bool) (timebase : Timebase)
    (operation : String) (scan : EditScan) (item : TimedItem) : Except Error EditScan :=
  if item.recordRange.endExclusive ≤ range.start then
    pure { scan with output := scan.output ++ [item] }
  else if range.endExclusive ≤ item.recordRange.start then
    if closeRange then do
      let shifted ← shiftItemLeft item range.duration timebase
      pure { scan with
        output := scan.output ++ [shifted]
        modifiedIds := pushUnique scan.modifiedIds item.id }
    else
      pure { scan with output := scan.output ++ [item] }
  else do
    let scan ← keepLeft range item operation scan
    let scan ← keepRight range closeRange timebase item operation scan
    pure (if ¬ item.recordRange.start < range.start ∧
        ¬ range.endExclusive < item.recordRange.endExclusive then
      { scan with removedIds := scan.removedIds ++ [item.id] } else scan)

def applyRangeReplacement (track : Track) (timelineId : TimelineId) (trackId : TrackId)
    (kind : EditKind) (range : TimeRange) (replacement : Option TimedItem)
    (fragmentIds : List EditorialObjectId) (closeRange : Bool)
    (durationChange : TrackDurationChange) : Except Error TrackEdit := do
  let operation := kind.code
  let scan ← (timedItems track.items).foldlM
    (replacementStep range closeRange track.timebase operation) (EditScan.start fragmentIds)
  finishFragments scan.fragmentIds operation
  finishEdit track timelineId trackId kind (sortTimed (scan.output ++ replacement.toList)) (pure {
    affectedRange := range
    durationChange
    insertedIds := replacement.toList.map TimedItem.id
    removedIds := scan.removedIds
    modifiedIds := scan.modifiedIds
    fragments := scan.created })

def applyOverwrite (track : Track) (timelineId : TimelineId) (trackId : TrackId)
    (at' : RationalTime) (material : TrackItem) (fragmentIds : List EditorialObjectId) :
    Except Error TrackEdit := do
  let timebase := track.timebase
  validatePointClock at' timebase "overwrite"
  let material ← normalizeMaterial material at' timebase "overwrite"
  let range ← TimeRange.new at' material.recordRange.duration
  validateEditRange track range "overwrite"
  applyRangeReplacement track timelineId trackId .overwrite range (some material) fragmentIds
    false .unchanged

def applyAppend (track : Track) (timelineId : TimelineId) (trackId : TrackId)
    (material : TrackItem) : Except Error TrackEdit := do
  let timebase := track.timebase
  let at' := trackEnd track
  let material ← normalizeMaterial material at' timebase "append"
  let duration := material.recordRange.duration
  let affectedRange ← TimeRange.new at' duration
  finishEdit track timelineId trackId .append (sortTimed (timedItems track.items ++ [material]))
    (pure {
      affectedRange
      durationChange := .extended duration
      insertedIds := [material.id] })

/-- Whether the identity names a transition, which no timed operation accepts as its target. -/
def isTransitionId : EditorialObjectId → Bool
  | .transition _ => true
  | _ => false

/-- Split the timed items at the first one with the given identity. -/
def locate (timed : List TimedItem) (id : EditorialObjectId) (error : Error) :
    Except Error (List TimedItem × TimedItem × List TimedItem) :=
  okOr (splitFirst (fun item => decide (item.id = id)) timed) error

def applyReplace (track : Track) (timelineId : TimelineId) (trackId : TrackId)
    (targetId : EditorialObjectId) (material : TrackItem) : Except Error TrackEdit := do
  rejectIf (isTransitionId targetId = true)
    (invalidEdit "replace" "replace targets must be timed editorial objects")
  let (before, target, after) ← locate (timedItems track.items) targetId
    (notFoundEdit "replace" "replace target was not found on the target track")
  let targetRange := target.recordRange
  let material ← normalizeMaterial material targetRange.start track.timebase "replace"
  rejectIf (¬ material.recordRange.duration ≈ targetRange.duration)
    (invalidEdit "replace"
      "replacement material must exactly match the target record duration")
  let insertedId := material.id
  finishEdit track timelineId trackId .replace (before ++ material :: after) (pure {
    affectedRange := targetRange
    insertedIds := if targetId = insertedId then [] else [insertedId]
    removedIds := if targetId = insertedId then [] else [targetId]
    modifiedIds := if targetId = insertedId then [targetId] else [] })

/-! ## Lift and extract -/

def applyLift (track : Track) (timelineId : TimelineId) (trackId : TrackId) (range : TimeRange)
    (gap : Gap) (fragmentIds : List EditorialObjectId) : Except Error TrackEdit := do
  validateEditRange track range "lift"
  rejectIf (¬ gap.recordRange.duration ≈ range.duration)
    (invalidEdit "lift" "lift gap duration must exactly match the lifted record range")
  let replacement := TimedItem.gap { gap with recordRange := range }
  applyRangeReplacement track timelineId trackId .lift range (some replacement) fragmentIds
    false .unchanged

def applyExtract (track : Track) (timelineId : TimelineId) (trackId : TrackId) (range : TimeRange)
    (fragmentIds : List EditorialObjectId) : Except Error TrackEdit := do
  validateEditRange track range "extract"
  applyRangeReplacement track timelineId trackId .extract range none fragmentIds
    true (.shortened range.duration)

/-! ## Ripple, roll, slip, retime, slide -/

/-- The new record range of a rippled target and the signed move of everything after it. -/
def rippleRange (oldRange : TimeRange) (side : EditSide) (to' : RationalTime)
    (timebase : Timebase) : Except Error (TimeRange × RationalTime) :=
  let oldEnd := oldRange.endExclusive
  match side with
  | .start => do
      rejectIf (oldEnd ≤ to')
        (invalidEdit "ripple" "ripple start must remain before the target end")
      let removed ← to'.checkedSubAt oldRange.start timebase .exact
      let newEnd ← oldEnd.checkedSubAt removed timebase .exact
      let range ← TimeRange.fromStartEnd oldRange.start newEnd
      let delta ← newEnd.checkedSubAt oldEnd timebase .exact
      pure (range, delta)
  | .stop => do
      rejectIf (to' ≤ oldRange.start)
        (invalidEdit "ripple" "ripple end must remain after the target start")
      let range ← TimeRange.fromStartEnd oldRange.start to'
      let delta ← to'.checkedSubAt oldEnd timebase .exact
      pure (range, delta)

/-- The edge an operation moves. -/
def sideBoundary (range : TimeRange) : EditSide → RationalTime
  | .start => range.start
  | .stop => range.endExclusive

/-- The earlier of two coordinates, the second one when they are equal. -/
def earlier (left right : RationalTime) : RationalTime :=
  if left < right then left else right

def applyRipple (track : Track) (timelineId : TimelineId) (trackId : TrackId)
    (targetId : EditorialObjectId) (side : EditSide) (to' : RationalTime) :
    Except Error TrackEdit := do
  rejectIf (isTransitionId targetId = true)
    (invalidEdit "ripple" "ripple targets must be timed editorial objects")
  let timebase := track.timebase
  validatePointClock to' timebase "ripple"
  let (before, target, after) ← locate (timedItems track.items) targetId
    (notFoundEdit "ripple" "ripple target was not found on the target track")
  let oldRange := target.recordRange
  let (newRange, delta) ← rippleRange oldRange side to' timebase
  rejectIf (delta.isZero = true) (invalidEdit "ripple" "ripple edit must move its edge")
  let trimmed ← trimItem target newRange side "ripple"
  let shifted ← after.mapM fun item => shiftItemBy item delta timebase
  finishEdit track timelineId trackId .ripple (before ++ trimmed :: shifted) (do
    let magnitude ← Duration.new delta.value.natAbs timebase
    let affectedRange ← TimeRange.new (earlier to' (sideBoundary oldRange side)) magnitude
    pure {
      affectedRange
      durationChange := if delta.isNegative then .shortened magnitude else .extended magnitude
      modifiedIds := (shifted.map TimedItem.id).foldl pushUnique [targetId] })

def applyRoll (track : Track) (timelineId : TimelineId) (trackId : TrackId)
    (leftId rightId : EditorialObjectId) (to' : RationalTime) : Except Error TrackEdit := do
  let timebase := track.timebase
  validatePointClock to' timebase "roll"
  let timed := timedItems track.items
  let (before, left, _) ← locate timed leftId (notFoundEdit "roll" "left roll target was not found")
  let (before', right, after) ← locate timed rightId
    (notFoundEdit "roll" "right roll target was not found")
  rejectIf (before'.length ≠ before.length + 1)
    (invalidEdit "roll" "roll targets must be adjacent timed objects in record order")
  let leftRange := left.recordRange
  let rightRange := right.recordRange
  rejectIf (¬ leftRange.endExclusive ≈ rightRange.start)
    (invalidEdit "roll" "roll targets must share one exact edit point")
  rejectIf (to' ≤ leftRange.start ∨ rightRange.endExclusive ≤ to')
    (invalidEdit "roll" "roll point must remain inside the combined two-item span")
  rejectIf (to' ≈ rightRange.start) (invalidEdit "roll" "roll edit must move its cut")
  let combinedRange ← TimeRange.fromStartEnd leftRange.start rightRange.endExclusive
  let newLeft ← TimeRange.fromStartEnd leftRange.start to'
  let left ← trimItem left newLeft .stop "roll"
  let newRight ← TimeRange.fromStartEnd to' rightRange.endExclusive
  let right ← trimItem right newRight .start "roll"
  finishEdit track timelineId trackId .roll (before ++ left :: right :: after) (pure {
    affectedRange := combinedRange
    modifiedIds := [leftId, rightId] })

/-- Edit one clip where it stands: no other item of the track changes. -/
def editClip (track : Track) (timelineId : TimelineId) (trackId : TrackId) (kind : EditKind)
    (clipId : ClipId) (notAClip : Error) (edit : Clip → Except Error Clip) :
    Except Error TrackEdit := do
  let (before, item, after) ← okOr
    (splitFirst (fun item : TrackItem => decide (item.id = .clip clipId)) track.items)
    (notFound "find_item" "editorial item was not found")
  match item with
  | .timed (.clip clip) => do
      let edited ← edit clip
      pure (track.replaceItems (before ++ .timed (.clip edited) :: after), {
        kind, timelineId, trackId
        affectedRange := edited.recordRange
        durationChange := .unchanged
        insertedIds := []
        removedIds := []
        modifiedIds := [.clip clipId]
        fragments := []
        removedTransitions := []
        synchronizedTracks := [] })
  | _ => .error notAClip

/-- The source range of a slipped clip. -/
def slipClip (sourceStart : RationalTime) (clip : Clip) : Except Error Clip := do
  let oldSource := clip.sourceRange
  rejectIf (sourceStart.timebase ≠ oldSource.timebase)
    (invalidEdit "slip" "slip source point must use the exact clip source timebase")
  rejectIf (sourceStart ≈ oldSource.start)
    (invalidEdit "slip" "slip edit must move its source range")
  let sourceRange ← TimeRange.new sourceStart oldSource.duration
  clip.setSourceRange sourceRange

def applySlip (track : Track) (timelineId : TimelineId) (trackId : TrackId) (clipId : ClipId)
    (sourceStart : RationalTime) : Except Error TrackEdit :=
  editClip track timelineId trackId .slip clipId
    (invalidEdit "slip" "slip targets must be source-bearing clips") (slipClip sourceStart)

/-- `==` of the source on time maps: every coordinate compared as physical time. -/
def ClipTimeMap.same (left right : ClipTimeMap) : Bool :=
  decide (left.recordDuration ≈ right.recordDuration) &&
    decide (left.sourceTimebase = right.sourceTimebase) &&
    decide (List.Forall₂ (fun (a b : RetimeSegment) =>
      a.recordRange ≈ b.recordRange ∧ a.sourceStart ≈ b.sourceStart ∧ a.rate = b.rate)
      left.segments right.segments)

/-- The clip with its playback timing replaced. -/
def retimeClip (timeMap : ClipTimeMap) (clip : Clip) : Except Error Clip := do
  rejectIf (clip.timeMap.same timeMap = true)
    (invalidEdit "retime" "retime edit must change the clip time map")
  clip.setTimeMap timeMap

def applyRetime (track : Track) (timelineId : TimelineId) (trackId : TrackId) (clipId : ClipId)
    (timeMap : ClipTimeMap) : Except Error TrackEdit :=
  editClip track timelineId trackId .retime clipId
    (invalidEdit "retime" "retime targets must be source-bearing clips") (retimeClip timeMap)

/-- The neighbours of a slid clip: its predecessor with the items before it, and its successor
with the items after it. -/
def slideNeighbours (before after : List TimedItem) :
    Except Error ((List TimedItem × TimedItem) × (TimedItem × List TimedItem)) :=
  match before.getLast?, after with
  | some left, right :: after => pure ((before.dropLast, left), (right, after))
  | _, _ =>
      .error (invalidEdit "slide" "slide requires one adjacent clip on each side")

def applySlide (track : Track) (timelineId : TimelineId) (trackId : TrackId) (clipId : ClipId)
    (to' : RationalTime) : Except Error TrackEdit := do
  let timebase := track.timebase
  validatePointClock to' timebase "slide"
  let (before, center, after) ← locate (timedItems track.items) (.clip clipId)
    (notFoundEdit "slide" "slide clip was not found on the target track")
  let ((before, left), (right, after)) ← slideNeighbours before after
  rejectIf (left.asClip = none ∨ center.asClip = none ∨ right.asClip = none)
    (invalidEdit "slide" "slide requires three adjacent source-bearing clips")
  let leftRange := left.recordRange
  let centerRange := center.recordRange
  let rightRange := right.recordRange
  let newCenterEnd ← to'.checkedAddAt centerRange.duration.rationalTime timebase .exact
  rejectIf (to' ≤ leftRange.start ∨ rightRange.endExclusive ≤ newCenterEnd)
    (invalidEdit "slide" "slide must leave both adjacent clips with nonzero duration")
  rejectIf (to' ≈ centerRange.start)
    (invalidEdit "slide" "slide edit must move its center clip")
  let newLeft ← TimeRange.fromStartEnd leftRange.start to'
  let left ← trimItem left newLeft .stop "slide"
  let newCenter ← TimeRange.new to' centerRange.duration
  let center ← repositionItem center newCenter
  let newRight ← TimeRange.fromStartEnd newCenterEnd rightRange.endExclusive
  let right ← trimItem right newRight .start "slide"
  let affectedRange ← TimeRange.fromStartEnd leftRange.start rightRange.endExclusive
  finishEdit track timelineId trackId .slide (before ++ left :: center :: right :: after) (pure {
    affectedRange
    modifiedIds := [left.id, .clip clipId, right.id] })

/-! ## Razor and trim -/

def applyRazor (track : Track) (timelineId : TimelineId) (trackId : TrackId)
    (targetId : EditorialObjectId) (at' : RationalTime) (fragmentId : EditorialObjectId) :
    Except Error TrackEdit := do
  rejectIf (isTransitionId targetId = true)
    (invalidEdit "razor" "transitions cannot be independently razored")
  rejectIf (sameTypedDomain targetId fragmentId = false)
    (invalidEdit "razor"
      "razor fragment identity must have the same typed domain as its original object")
  validatePointClock at' track.timebase "razor"
  let (before, target, after) ← locate (timedItems track.items) targetId
    (notFoundEdit "razor" "razor target was not found on the target track")
  let range := target.recordRange
  rejectIf (at' ≤ range.start ∨ range.endExclusive ≤ at')
    (invalidEdit "razor" "razor point must lie strictly inside the target record range")
  let left ← sliceItem target range.start at' targetId "razor"
  let right ← sliceItem target at' range.endExclusive fragmentId "razor"
  finishEdit track timelineId trackId .razor (before ++ left :: right :: after) (pure {
    affectedRange := range
    insertedIds := [fragmentId]
    modifiedIds := [targetId, fragmentId]
    fragments := [⟨targetId, fragmentId⟩] })

/-- What a trim does to the target and its neighbours. -/
structure TrimResult where
  timed : List TimedItem
  insertedIds : List EditorialObjectId
  removedIds : List EditorialObjectId
  modifiedIds : List EditorialObjectId

/-- The gap an inward trim leaves behind when no adjacent gap can grow. -/
def trimGap (gapId : Option GapId) (range : TimeRange) : Except Error TimedItem := do
  let id ← okOr gapId (invalidEdit "trim"
    "an inward trim without an adjacent gap requires a caller-supplied gap identity")
  pure (.gap { id, name := "trim gap", recordRange := range })

def trimEndInward (before : List TimedItem) (target : TimedItem) (after : List TimedItem)
    (newRange : TimeRange) (to' : RationalTime) (gapId : Option GapId) :
    Except Error TrimResult := do
  let trimmed ← trimItem target newRange .stop "trim"
  let gapRange ← TimeRange.fromStartEnd to' target.recordRange.endExclusive
  match after with
  | .gap next :: after => do
      let range ← TimeRange.fromStartEnd to' next.recordRange.endExclusive
      let next ← setRecordRange (.gap next) range
      pure {
        timed := before ++ trimmed :: next :: after
        insertedIds := []
        removedIds := []
        modifiedIds := pushUnique [target.id] next.id }
  | after => do
      let gap ← trimGap gapId gapRange
      pure {
        timed := before ++ trimmed :: gap :: after
        insertedIds := [gap.id]
        removedIds := []
        modifiedIds := [target.id] }

def trimEndOutward (before : List TimedItem) (target : TimedItem) (after : List TimedItem)
    (newRange : TimeRange) (to' : RationalTime) : Except Error TrimResult :=
  match after with
  | [] => .error (invalidEdit "trim" "outward end trim requires an adjacent gap")
  | .gap next :: after => do
      let gapEnd := next.recordRange.endExclusive
      rejectIf (gapEnd < to') (invalidEdit "trim" "outward end trim exceeds the adjacent gap")
      let trimmed ← trimItem target newRange .stop "trim"
      if to' ≈ gapEnd then
        pure {
          timed := before ++ trimmed :: after
          insertedIds := []
          removedIds := [.gap next.id]
          modifiedIds := [target.id] }
      else do
        let range ← TimeRange.fromStartEnd to' gapEnd
        let next ← setRecordRange (.gap next) range
        pure {
          timed := before ++ trimmed :: next :: after
          insertedIds := []
          removedIds := []
          modifiedIds := pushUnique [target.id] next.id }
  | _ :: _ =>
      .error (invalidEdit "trim" "outward end trim may consume only an adjacent gap")

def trimStartInward (before : List TimedItem) (target : TimedItem) (after : List TimedItem)
    (newRange : TimeRange) (to' : RationalTime) (gapId : Option GapId) :
    Except Error TrimResult := do
  let trimmed ← trimItem target newRange .start "trim"
  match before.getLast? with
  | some (.gap previous) => do
      let range ← TimeRange.fromStartEnd previous.recordRange.start to'
      let previous ← setRecordRange (.gap previous) range
      pure {
        timed := before.dropLast ++ previous :: trimmed :: after
        insertedIds := []
        removedIds := []
        modifiedIds := pushUnique [target.id] previous.id }
  | _ => do
      let gapId ← okOr gapId (invalidEdit "trim"
        "an inward trim without an adjacent gap requires a caller-supplied gap identity")
      let gapRange ← TimeRange.fromStartEnd target.recordRange.start to'
      let gap := TimedItem.gap { id := gapId, name := "trim gap", recordRange := gapRange }
      pure {
        timed := before ++ gap :: trimmed :: after
        insertedIds := [gap.id]
        removedIds := []
        modifiedIds := [target.id] }

def trimStartOutward (before : List TimedItem) (target : TimedItem) (after : List TimedItem)
    (newRange : TimeRange) (to' : RationalTime) : Except Error TrimResult :=
  match before.getLast? with
  | some (.gap previous) => do
      let gapRange := previous.recordRange
      rejectIf (to' < gapRange.start)
        (invalidEdit "trim" "outward start trim exceeds the adjacent gap")
      let trimmed ← trimItem target newRange .start "trim"
      if to' ≈ gapRange.start then
        pure {
          timed := before.dropLast ++ trimmed :: after
          insertedIds := []
          removedIds := [.gap previous.id]
          modifiedIds := [target.id] }
      else do
        let range ← TimeRange.fromStartEnd gapRange.start to'
        let previous ← setRecordRange (.gap previous) range
        pure {
          timed := before.dropLast ++ previous :: trimmed :: after
          insertedIds := []
          removedIds := []
          modifiedIds := pushUnique [target.id] previous.id }
  | _ => .error (invalidEdit "trim" "outward start trim requires an adjacent gap")

/-- The record range of a trimmed object, which must keep a nonzero duration. -/
def trimRange (oldRange : TimeRange) (side : EditSide) (to' : RationalTime) :
    Except Error TimeRange :=
  match side with
  | .start =>
      if to' < oldRange.endExclusive then TimeRange.fromStartEnd to' oldRange.endExclusive
      else .error (invalidEdit "trim" "trimmed object must retain a nonzero record duration")
  | .stop =>
      if oldRange.start < to' then TimeRange.fromStartEnd oldRange.start to'
      else .error (invalidEdit "trim" "trimmed object must retain a nonzero record duration")

/-- The trim for the side that moves, by the direction it moves in. -/
def trimSide (before : List TimedItem) (target : TimedItem) (after : List TimedItem)
    (newRange : TimeRange) (side : EditSide) (to' : RationalTime) (gapId : Option GapId) :
    Except Error TrimResult :=
  match side with
  | .stop =>
      if to' < sideBoundary target.recordRange side then
        trimEndInward before target after newRange to' gapId
      else trimEndOutward before target after newRange to'
  | .start =>
      if sideBoundary target.recordRange side < to' then
        trimStartInward before target after newRange to' gapId
      else trimStartOutward before target after newRange to'

def applyTrim (track : Track) (timelineId : TimelineId) (trackId : TrackId)
    (targetId : EditorialObjectId) (side : EditSide) (to' : RationalTime) (gapId : Option GapId) :
    Except Error TrackEdit := do
  rejectIf (isTransitionId targetId = true)
    (invalidEdit "trim" "trim targets must be timed editorial objects")
  let timebase := track.timebase
  validatePointClock to' timebase "trim"
  let (before, target, after) ← locate (timedItems track.items) targetId
    (notFoundEdit "trim" "trim target was not found on the target track")
  let oldRange := target.recordRange
  let oldBoundary := sideBoundary oldRange side
  rejectIf (to' ≈ oldBoundary) (invalidEdit "trim" "trim edit must move its edge")
  let newRange ← trimRange oldRange side to'
  let result ← trimSide before target after newRange side to' gapId
  let moved ← to'.checkedSubAt oldBoundary timebase .exact
  let magnitude ← Duration.new moved.value.natAbs timebase
  finishEdit track timelineId trackId .trim result.timed (do
    let affectedRange ← TimeRange.new (earlier to' oldBoundary) magnitude
    pure {
      affectedRange
      insertedIds := result.insertedIds
      removedIds := result.removedIds
      modifiedIds := result.modifiedIds })

/-! ## Extend -/

/-- The pair of neighbours a roll extension moves the cut between. -/
def extendRollPair (timed : List TimedItem) (targetId : EditorialObjectId) (side : EditSide) :
    Except Error (EditorialObjectId × EditorialObjectId) := do
  let (before, _, after) ← locate timed targetId
    (notFoundEdit "extend" "extend target was not found")
  match side, before.getLast?, after.head? with
  | .stop, _, some next => pure (targetId, next.id)
  | .start, some previous, _ => pure (previous.id, targetId)
  | _, _, _ =>
      .error (invalidEdit "extend"
        "roll extend requires an adjacent timed object on the moved edge")

def applyExtend (track : Track) (timelineId : TimelineId) (trackId : TrackId)
    (targetId : EditorialObjectId) (side : EditSide) (to' : RationalTime) (mode : ExtendMode) :
    Except Error TrackEdit := do
  let (track, outcome) ← match mode with
    | .ripple => applyRipple track timelineId trackId targetId side to'
    | .roll => do
        let (leftId, rightId) ← extendRollPair (timedItems track.items) targetId side
        applyRoll track timelineId trackId leftId rightId to'
  pure (track, { outcome with kind := .extend })

/-! ## Set transition -/

/-- The record range covered by both handles around a cut. -/
def transitionHandleRange (cut : RationalTime) (fromOffset toOffset : Duration) :
    Except Error TimeRange := do
  let start ← RationalTime.tryFrom (cut.value - fromOffset.value) cut.timebase
    (invalidEdit "set_transition" "transition from handle exceeds the supported exact range")
  let stop ← RationalTime.tryFrom (cut.value + toOffset.value) cut.timebase
    (invalidEdit "set_transition" "transition to handle exceeds the supported exact range")
  TimeRange.fromStartEnd start stop

def applySetTransition (track : Track) (timelineId : TimelineId) (trackId : TrackId)
    (transitionId : TransitionId) (fromOffset toOffset : Duration) : Except Error TrackEdit := do
  let timebase := track.timebase
  rejectIf (fromOffset.timebase ≠ timebase ∨ toOffset.timebase ≠ timebase)
    (invalidEdit "set_transition" "transition handles must use the exact target track clock")
  rejectIf (fromOffset.isZero = true ∧ toOffset.isZero = true)
    (invalidEdit "set_transition" "transition handle duration must be nonzero")
  let objectId := EditorialObjectId.transition transitionId
  let (before, item, after) ← okOr
    (splitFirst (fun item : TrackItem => decide (item.id = objectId)) track.items)
    (notFoundEdit "set_transition" "transition was not found")
  match item with
  | .timed _ =>
      .error (invalidEdit "set_transition" "transition identity resolved to an unrelated item")
  | .transition transition => do
      rejectIf (transition.fromOffset ≈ fromOffset ∧ transition.toOffset ≈ toOffset)
        (invalidEdit "set_transition" "transition handle edit must change at least one offset")
      let previousRange ← okOr (before.getLast?.bind TrackItem.recordRange)
        (invalidEdit "set_transition" "transition must retain a preceding timed endpoint")
      let cut := previousRange.endExclusive
      let oldRange ← transitionHandleRange cut transition.fromOffset transition.toOffset
      let newRange ← transitionHandleRange cut fromOffset toOffset
      let affectedEnd := if newRange.endExclusive < oldRange.endExclusive then
        oldRange.endExclusive else newRange.endExclusive
      let affectedRange ← TimeRange.fromStartEnd (earlier oldRange.start newRange.start) affectedEnd
      pure (track.replaceItems
          (before ++ .transition { transition with fromOffset, toOffset } :: after), {
        kind := .setTransition
        timelineId, trackId, affectedRange
        durationChange := .unchanged
        insertedIds := []
        removedIds := []
        modifiedIds := [objectId]
        fragments := []
        removedTransitions := []
        synchronizedTracks := [] })

/-! ## Three-point and four-point placement -/

/-- The fourth point, from the three the placement fixes: source range and record range. -/
def threePointRanges (placement : ThreePointPlacement) (trackTimebase : Timebase) :
    Except Error (TimeRange × TimeRange) :=
  match placement with
  | .sourceRangeAtRecordStart sourceRange recordStart => do
      validatePointClock recordStart trackTimebase "three_point"
      let duration ← exactDurationAt sourceRange.duration trackTimebase "three_point"
      let recordRange ← TimeRange.new recordStart duration
      pure (sourceRange, recordRange)
  | .sourceStartOverRecordRange sourceStart recordRange => do
      validateRecordClock recordRange trackTimebase "three_point"
      let duration ← exactDurationAt recordRange.duration sourceStart.timebase "three_point"
      let sourceRange ← TimeRange.new sourceStart duration
      pure (sourceRange, recordRange)
  | .sourceRangeBacktimedToRecordEnd sourceRange recordEnd => do
      validatePointClock recordEnd trackTimebase "three_point"
      let duration ← exactDurationAt sourceRange.duration trackTimebase "three_point"
      let recordStart ← recordEnd.checkedSubAt duration.rationalTime trackTimebase .exact
      let recordRange ← TimeRange.new recordStart duration
      pure (sourceRange, recordRange)
  | .sourceEndBacktimedOverRecordRange sourceEnd recordRange => do
      validateRecordClock recordRange trackTimebase "three_point"
      let duration ← exactDurationAt recordRange.duration sourceEnd.timebase "three_point"
      let sourceStart ← sourceEnd.checkedSubAt duration.rationalTime sourceEnd.timebase .exact
      let sourceRange ← TimeRange.new sourceStart duration
      pure (sourceRange, recordRange)

def applyThreePoint (track : Track) (timelineId : TimelineId) (trackId : TrackId) (clip : Clip)
    (placement : ThreePointPlacement) (fragmentIds : List EditorialObjectId) :
    Except Error TrackEdit := do
  let (sourceRange, recordRange) ← threePointRanges placement track.timebase
  let placed ← clip.setRanges sourceRange recordRange
  let (track, outcome) ← applyOverwrite track timelineId trackId recordRange.start
    (.timed (.clip placed)) fragmentIds
  pure (track, { outcome with kind := .threePoint })

def applyFourPoint (track : Track) (timelineId : TimelineId) (trackId : TrackId) (clip : Clip)
    (sourceRange recordRange : TimeRange) (fragmentIds : List EditorialObjectId) :
    Except Error TrackEdit := do
  validateRecordClock recordRange track.timebase "four_point"
  rejectIf (¬ sourceRange.duration.rationalTime ≈ recordRange.duration.rationalTime)
    (unsupportedEdit "four_point"
      "four-point fit-to-fill requires the P2.W02.C008 time-remapping capability")
  let placed ← clip.setRanges sourceRange recordRange
  let (track, outcome) ← applyOverwrite track timelineId trackId recordRange.start
    (.timed (.clip placed)) fragmentIds
  pure (track, { outcome with kind := .fourPoint })

end Editorial
end Superi

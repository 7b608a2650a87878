import Superi.Lib.Sequence
import Superi.Timeline.EditTypes
import Superi.Timeline.Validate

/-!
# EditItems — cutting, moving and re-threading track items

The item-level helpers shared by the editing operations: slices, trims and shifts of one timed
item, the cursor over caller-supplied fragment identities, the stable sort by start, and the
pass that puts surviving transitions back between their neighbours.
-/

namespace Superi
namespace Editorial

open Core Result Sequence

/-! ## One timed item -/

def exactDurationAt (duration : Duration) (timebase : Timebase) (operation : String) :
    Except Error Duration :=
  withErrorContext (duration.checkedRescale timebase .exact)
    ⟨"superi-timeline.edit_ops", operation⟩

/-- Place the item on another record range; a clip keeps its source selection. -/
def setRecordRange (item : TimedItem) (range : TimeRange) : Except Error TimedItem :=
  match item with
  | .clip value => do
      let clip ← value.setRecordRange range
      pure (.clip clip)
  | .gap value => pure (.gap { value with recordRange := range })
  | .generator value => pure (.generator { value with recordRange := range })
  | .caption value => pure (.caption { value with recordRange := range })

def repositionItem (item : TimedItem) (range : TimeRange) : Except Error TimedItem :=
  setRecordRange item range

/-- The same object under another identity of its own domain. -/
def cloneWithId (item : TimedItem) (id : EditorialObjectId) (operation : String) :
    Except Error TimedItem :=
  match item, id with
  | .clip value, .clip id => pure (.clip (value.cloneWithId id))
  | .gap value, .gap id => pure (.gap { value with id })
  | .generator value, .generator id => pure (.generator { value with id })
  | .caption value, .caption id => pure (.caption { value with id })
  | _, _ =>
      .error (invalidEdit operation
        "fragment identity must have the same typed domain as its original object")

/-- The part of the item between two record times, under the identity `id`. -/
def sliceItem (item : TimedItem) (start stop : RationalTime) (id : EditorialObjectId)
    (operation : String) : Except Error TimedItem := do
  let oldRange := item.recordRange
  rejectIf (start.timebase ≠ oldRange.timebase ∨ stop.timebase ≠ oldRange.timebase ∨
      start < oldRange.start ∨ oldRange.endExclusive < stop ∨ stop < start)
    (invalidEdit operation "item slice must lie within its exact record range")
  let newRange ← TimeRange.fromStartEnd start stop
  match item with
  | .clip clip =>
      match id with
      | .clip id => do
          let sliced ← clip.sliceWithId id newRange
          pure (.clip sliced)
      | _ =>
          .error (invalidEdit operation
            "fragment identity must have the same typed domain as its original object")
  | _ => do
      let sliced ← cloneWithId item id operation
      setRecordRange sliced newRange

/-- The source start of a clip trimmed on one side to `newRange`. -/
def trimmedSourceStart (clip : Clip) (newRange : TimeRange) : EditSide → Except Error RationalTime
  | .start => do
      let recordOffset ← newRange.start.checkedSubAt clip.recordRange.start
        clip.recordRange.timebase .exact
      let sourceOffset ← recordOffset.checkedRescale clip.sourceRange.timebase .exact
      clip.sourceRange.start.checkedAddAt sourceOffset clip.sourceRange.timebase .exact
  | .stop => pure clip.sourceRange.start

/-- Move one edge of the item; a clip follows with its source selection. -/
def trimItem (item : TimedItem) (newRange : TimeRange) (movedSide : EditSide) (operation : String) :
    Except Error TimedItem :=
  match item with
  | .clip clip => do
      let sourceStart ← trimmedSourceStart clip newRange movedSide
      let sourceDuration ← exactDurationAt newRange.duration clip.sourceRange.timebase operation
      let sourceRange ← TimeRange.new sourceStart sourceDuration
      let trimmed ← clip.setRanges sourceRange newRange
      pure (.clip trimmed)
  | _ => setRecordRange item newRange

def shiftItemBy (item : TimedItem) (delta : RationalTime) (timebase : Timebase) :
    Except Error TimedItem := do
  let start ← item.recordRange.start.checkedAddAt delta timebase .exact
  let range ← TimeRange.new start item.recordRange.duration
  repositionItem item range

def shiftItemRight (item : TimedItem) (duration : Duration) (timebase : Timebase) :
    Except Error TimedItem := do
  let start ← item.recordRange.start.checkedAddAt duration.rationalTime timebase .exact
  let range ← TimeRange.new start item.recordRange.duration
  repositionItem item range

def shiftItemLeft (item : TimedItem) (duration : Duration) (timebase : Timebase) :
    Except Error TimedItem := do
  let start ← item.recordRange.start.checkedSubAt duration.rationalTime timebase .exact
  let range ← TimeRange.new start item.recordRange.duration
  repositionItem item range

/-- Bring caller-supplied material to the track clock and place it at `at'`. -/
def normalizeMaterial (material : TrackItem) (at' : RationalTime) (timebase : Timebase)
    (operation : String) : Except Error TimedItem :=
  match material with
  | .transition _ =>
      .error (invalidEdit operation "transitions cannot be used as timed edit material")
  | .timed item => do
      let duration ← exactDurationAt item.recordRange.duration timebase operation
      rejectIf (duration.isZero = true)
        (invalidEdit operation "edit material must have a nonzero record duration")
      let range ← TimeRange.new at' duration
      repositionItem item range

/-! ## Preconditions -/

def validatePointClock (point : RationalTime) (expected : Timebase) (operation : String) :
    Except Error Unit :=
  rejectIf (point.timebase ≠ expected)
    (invalidEdit operation "edit point must use the exact target track timebase")

def validateRecordClock (range : TimeRange) (expected : Timebase) (operation : String) :
    Except Error Unit := do
  rejectIf (range.timebase ≠ expected)
    (invalidEdit operation "record range must use the exact target track timebase")
  rejectIf (range.isEmpty = true)
    (invalidEdit operation "record range must be nonempty")

/-- The end of the last timed item, or time zero on the track clock. -/
def trackEnd (track : Track) : RationalTime :=
  match (timedItems track.items).getLast? with
  | some item => item.recordRange.endExclusive
  | none => RationalTime.zero track.timebase

def validateEditRange (track : Track) (range : TimeRange) (operation : String) :
    Except Error Unit := do
  rejectIf (range.timebase ≠ track.timebase)
    (invalidEdit operation "edit range must use the exact target track timebase")
  rejectIf (range.isEmpty = true) (invalidEdit operation "edit range must be nonempty")
  rejectIf (range.start.isNegative = true ∨ trackEnd track < range.endExclusive)
    (invalidEdit operation "edit range must lie within the current target track duration")

/-! ## Fragment identities -/

/-- Whether two identities belong to the same object domain. -/
def sameTypedDomain : EditorialObjectId → EditorialObjectId → Bool
  | .clip _, .clip _ => true
  | .gap _, .gap _ => true
  | .transition _, .transition _ => true
  | .generator _, .generator _ => true
  | .caption _, .caption _ => true
  | _, _ => false

/-- Take the next supplied fragment identity: the identity and the unread rest. -/
def nextFragment (fragmentIds : List EditorialObjectId) (original : EditorialObjectId)
    (operation : String) : Except Error (EditorialObjectId × List EditorialObjectId) :=
  match fragmentIds with
  | [] =>
      .error (invalidEdit operation
        "a caller-supplied right fragment identity is required at this edit boundary")
  | id :: rest =>
      if sameTypedDomain original id then pure (id, rest)
      else
        .error (invalidEdit operation
          "fragment identity must have the same typed domain as its original object")

def finishFragments (fragmentIds : List EditorialObjectId) (operation : String) :
    Except Error Unit :=
  rejectIf (fragmentIds ≠ []) (invalidEdit operation
    "fragment identity list contains unused identities")

/-! ## Order and transitions -/

/-- `sort_by_key` on the record start: stable, so items that share a start keep their order. -/
def sortTimed (items : List TimedItem) : List TimedItem :=
  items.insertionSort fun left right =>
    left.recordRange.start.value ≤ right.recordRange.start.value

/-- Every item after the first, with the transition that names it and its predecessor. -/
def findBoundaries (transitions : List Transition) :
    TimedItem → List TimedItem → List (Option Transition × TimedItem)
  | _, [] => []
  | previous, next :: rest =>
      (transitions.find? fun transition =>
        transition.fromId = previous.id ∧ transition.toId = next.id, next) ::
      findBoundaries transitions next rest

/-- Drop a transition that no longer fits into one of its neighbours. -/
def fitBoundary (previous : TimedItem) (boundary : Option Transition) (next : TimedItem) :
    Option Transition :=
  match boundary with
  | none => none
  | some transition =>
      if previous.recordRange.duration < transition.fromOffset ∨
          next.recordRange.duration < transition.toOffset then none
      else some transition

def fitBoundaries : TimedItem → List (Option Transition × TimedItem) →
    List (Option Transition × TimedItem)
  | _, [] => []
  | previous, (boundary, next) :: rest =>
      (fitBoundary previous boundary next, next) :: fitBoundaries next rest

/-- Drop `outgoing` when it and the transition into `item` would overlap inside `item`. -/
def dropOverlap (incoming : Option Transition) (item : TimedItem) (outgoing : Option Transition) :
    Except Error (Option Transition) :=
  match incoming, outgoing with
  | some into, some out => do
      let combined ← into.toOffset.rationalTime.checkedAddAt out.fromOffset.rationalTime
        item.recordRange.duration.timebase .exact
      pure (if item.recordRange.duration.rationalTime < combined then none else some out)
  | _, _ => pure outgoing

/-- The greedy left-to-right pass: each kept transition decides about the next one. -/
def dropOverlaps : Option Transition → TimedItem → List (Option Transition × TimedItem) →
    Except Error (List (Option Transition × TimedItem))
  | _, _, [] => pure []
  | incoming, item, (boundary, next) :: rest => do
      let outgoing ← dropOverlap incoming item boundary
      let rest ← dropOverlaps outgoing next rest
      pure ((outgoing, next) :: rest)

/-- Items in order, each preceded by the transition kept in front of it. -/
def weave : List (Option Transition × TimedItem) → List TrackItem
  | [] => []
  | (none, item) :: rest => .timed item :: weave rest
  | (some transition, item) :: rest => .transition transition :: .timed item :: weave rest

/-- Re-thread the surviving transitions, and report the identities of those dropped. -/
def rebuildWithTransitions (timed : List TimedItem) (transitions : List Transition) :
    Except Error (List TrackItem × List TransitionId) :=
  match timed with
  | [] => pure ([], transitions.map Transition.id)
  | first :: rest => do
      let boundaries ← dropOverlaps none first
        (fitBoundaries first (findBoundaries transitions first rest))
      let kept := boundaries.filterMap fun boundary => boundary.1.map Transition.id
      let removed := (transitions.filter fun transition => transition.id ∉ kept).map Transition.id
      pure (weave ((none, first) :: boundaries), removed)

end Editorial
end Superi

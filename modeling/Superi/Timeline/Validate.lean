import Mathlib
import Superi.Timeline.Items

/-!
# Validate — the checks every published track has passed

`validateTrack` walks a track in editorial order.  It threads the set of identities seen so far
through the whole project, requires timed items to follow one another from time zero on the
track's own clock, and checks every transition against its two neighbours.

`WellFormed` states what the walk establishes, and `validateTrack_eq_ok_iff` shows that it is
exactly that: a track passes when it is well formed and its identities are new.
-/

namespace Superi
namespace Editorial

open Core Result Tiling

/-! ## Text -/

/-- The Unicode `White_Space` property, which `str::trim` removes. -/
def isWhitespace (c : Char) : Bool :=
  let code := c.toNat
  (decide (0x09 ≤ code) && decide (code ≤ 0x0D)) || code == 0x20 || code == 0x85 ||
    code == 0xA0 || code == 0x1680 || (decide (0x2000 ≤ code) && decide (code ≤ 0x200A)) ||
    code == 0x2028 || code == 0x2029 || code == 0x202F || code == 0x205F || code == 0x3000

def isBlank (value : String) : Bool :=
  value.toList.all isWhitespace

def requireText (operation label value : String) : Except Error Unit :=
  rejectIf (isBlank value = true) (invalid operation (label ++ " must not be blank"))

@[simp] theorem requireText_eq_ok {operation label value : String} {u : Unit} :
    requireText operation label value = .ok u ↔ isBlank value = false := by
  rw [requireText, rejectIf_eq_ok, Bool.not_eq_true]

/-! ## Timed items -/

def validateRecordRange (range : TimeRange) (editRate : Timebase) (allowEmpty : Bool) :
    Except Error Unit := do
  rejectIf (range.timebase ≠ editRate)
    (invalid "validate_record_range" "record range must use the track edit clock")
  rejectIf (range.start.isNegative = true)
    (invalid "validate_record_range" "record range must not start before timeline zero")
  rejectIf (allowEmpty = false ∧ range.isEmpty = true)
    (invalid "validate_record_range" "editorial item must have a nonzero record duration")

/-- The text checks of one timed item, in source order. -/
def TimedItem.validateTexts : TimedItem → Except Error Unit
  | .clip value => requireText "validate_clip" "clip name" value.name
  | .gap value => requireText "validate_gap" "gap name" value.name
  | .generator value => do
      requireText "validate_generator" "generator name" value.name
      requireText "validate_generator" "generator kind" value.kind
      value.parameters.keys.forM fun key =>
        requireText "validate_generator" "generator parameter key" key
  | .caption value => do
      requireText "validate_caption" "caption name" value.name
      requireText "validate_caption" "caption text" value.text
      match value.language with
      | none => pure ()
      | some language => requireText "validate_caption" "caption language" language

/-- A clip must select as much source time as it occupies record time. -/
def TimedItem.validateDurations : TimedItem → Except Error Unit
  | .clip value =>
      rejectIf (¬ value.sourceRange.duration.rationalTime ≈ value.recordRange.duration.rationalTime)
        (invalid "validate_clip"
          "clip source and record durations must represent equal rational time")
  | _ => pure ()

/-- The checks on one timed item alone. -/
def TimedItem.validate (item : TimedItem) (editRate : Timebase) : Except Error Unit := do
  item.validateTexts
  validateRecordRange item.recordRange editRate item.isGap
  item.validateDurations

def requireContiguous (item : TimedItem) (priorEnd : RationalTime) : Except Error RationalTime := do
  rejectIf (¬ item.recordRange.start ≈ priorEnd)
    (invalid "validate_track_timing"
      "track items must be contiguous; use an explicit gap for empty time")
  pure item.recordRange.endExclusive

/-! ## Transitions -/

/-- The checks of a transition against its neighbours in the item list. -/
def validateTransition (previous : Option TrackItem) (transition : Transition)
    (next : Option TrackItem) (editRate : Timebase) : Except Error Unit := do
  requireText "validate_transition" "transition name" transition.name
  rejectIf (transition.fromOffset.timebase ≠ editRate ∨ transition.toOffset.timebase ≠ editRate)
    (invalid "validate_transition" "transition offsets must use the track edit clock")
  rejectIf (transition.fromOffset.isZero = true ∧ transition.toOffset.isZero = true)
    (invalid "validate_transition" "transition must consume time from at least one endpoint")
  let previous ← okOr previous
    (invalid "validate_transition" "transition must follow a timed track item")
  let next ← okOr next
    (invalid "validate_transition" "transition must precede a timed track item")
  let previousRange ← okOr previous.recordRange
    (invalid "validate_transition" "adjacent transitions are not valid")
  let nextRange ← okOr next.recordRange
    (invalid "validate_transition" "adjacent transitions are not valid")
  rejectIf (transition.fromId ≠ previous.id ∨ transition.toId ≠ next.id)
    (invalid "validate_transition" "transition endpoints must match its adjacent track items")
  rejectIf (previousRange.duration.value < transition.fromOffset.value ∨
      nextRange.duration.value < transition.toOffset.value)
    (invalid "validate_transition" "transition offsets must fit within adjacent item durations")

/-- What the item before, or the item after, consumes of the item between them. -/
def incomingOffset : Option TrackItem → Nat
  | some (.transition transition) => transition.toOffset.value
  | _ => 0

def outgoingOffset : Option TrackItem → Nat
  | some (.transition transition) => transition.fromOffset.value
  | _ => 0

/-- Transitions at both ends of an item must not overlap.  The sum cannot leave `u64`: both
offsets are below `2^63`. -/
def validateTransitionOverlap : Option TrackItem → List TrackItem → Except Error Unit
  | _, [] => pure ()
  | _, .transition transition :: rest =>
      validateTransitionOverlap (some (.transition transition)) rest
  | previous, .timed item :: rest => do
      rejectIf (item.recordRange.duration.value < incomingOffset previous + outgoingOffset rest.head?)
        (invalid "validate_transition" "transitions at both ends of an item must not overlap")
      validateTransitionOverlap (some (.timed item)) rest

/-! ## Tracks -/

/-- One step of the walk: the checks of `item`, and the end time reached after it. -/
def validateItem (editRate : Timebase) (previous : Option TrackItem) (item : TrackItem)
    (next : Option TrackItem) (priorEnd : RationalTime) : Except Error RationalTime :=
  match item with
  | .transition transition => do
      validateTransition previous transition next editRate
      pure priorEnd
  | .timed timed => do
      timed.validate editRate
      requireContiguous timed priorEnd

def validateItems (editRate : Timebase) :
    Option TrackItem → List TrackItem → Finset EditorialObjectId → RationalTime →
      Except Error (Finset EditorialObjectId)
  | _, [], objectIds, _ => pure objectIds
  | previous, item :: rest, objectIds, priorEnd => do
      rejectIf (item.id ∈ objectIds)
        (conflict "validate_track" "duplicate editorial object identity")
      let priorEnd ← validateItem editRate previous item rest.head? priorEnd
      validateItems editRate (some item) rest (insert item.id objectIds) priorEnd

/-- Check one track and add its identities to those already seen. -/
def validateTrack (track : Track) (objectIds : Finset EditorialObjectId) :
    Except Error (Finset EditorialObjectId) := do
  requireText "validate_track" "track name" track.name
  let objectIds ← validateItems track.timebase none track.items objectIds
    (RationalTime.zero track.timebase)
  validateTransitionOverlap none track.items
  pure objectIds

/-! ## What a valid track is -/

/-- Record start and end of a timed item, in seconds. -/
def TimedItem.lo (item : TimedItem) : ℚ := item.recordRange.start.seconds
def TimedItem.hi (item : TimedItem) : ℚ := item.recordRange.endExclusive.seconds

theorem TimedItem.lo_le_hi (item : TimedItem) : item.lo ≤ item.hi :=
  item.recordRange.start_le_end

/-- The timed items of an item list, in order. -/
def timedItems (items : List TrackItem) : List TimedItem :=
  items.filterMap fun
    | .timed item => some item
    | .transition _ => none

/-- The transitions of an item list, in order. -/
def transitionsOf (items : List TrackItem) : List Transition :=
  items.filterMap fun
    | .timed _ => none
    | .transition transition => some transition

/-- A timed item on the clock `editRate`, named, and nonempty unless it is a gap. -/
structure TimedItem.Valid (editRate : Timebase) (item : TimedItem) : Prop where
  texts : item.validateTexts = .ok ()
  clock : item.recordRange.timebase = editRate
  nonempty : item.isGap = true ∨ item.recordRange.isEmpty = false

/-- What is checked of a transition without looking at its neighbours. -/
structure Transition.Valid (editRate : Timebase) (transition : Transition) : Prop where
  named : isBlank transition.name = false
  fromClock : transition.fromOffset.timebase = editRate
  toClock : transition.toOffset.timebase = editRate
  consumes : ¬ (transition.fromOffset.isZero = true ∧ transition.toOffset.isZero = true)

/-- A transition joins exactly the two items it names and fits into both. -/
structure Transition.Joins (transition : Transition) (previous next : TimedItem) : Prop where
  fromId : transition.fromId = previous.id
  toId : transition.toId = next.id
  fromFits : transition.fromOffset.value ≤ previous.recordRange.duration.value
  toFits : transition.toOffset.value ≤ next.recordRange.duration.value

/-- Every transition joins its neighbours, and no item is consumed twice over. -/
def SeamsFit : Option TrackItem → List TrackItem → Prop
  | _, [] => True
  | previous, .transition transition :: rest =>
      (∃ before after, previous = some (.timed before) ∧ rest.head? = some (.timed after) ∧
        transition.Joins before after) ∧
      SeamsFit (some (.transition transition)) rest
  | previous, .timed item :: rest =>
      incomingOffset previous + outgoingOffset rest.head? ≤ item.recordRange.duration.value ∧
      SeamsFit (some (.timed item)) rest

/-- The invariant of a published track, apart from the identities it shares with the project. -/
structure Track.WellFormed (track : Track) : Prop where
  named : isBlank track.name = false
  timed : ∀ item ∈ timedItems track.items, item.Valid track.timebase
  transitions : ∀ transition ∈ transitionsOf track.items, transition.Valid track.timebase
  tiles : ∃ trackEnd, Tiles TimedItem.lo TimedItem.hi 0 (timedItems track.items) trackEnd
  seams : SeamsFit none track.items

/-- The identities of a track's items, in order. -/
def Track.objectIds (track : Track) : List EditorialObjectId :=
  track.items.map TrackItem.id

/-! ## The walk establishes exactly the invariant -/

@[simp] theorem timedItems_nil : timedItems [] = [] := rfl

@[simp] theorem timedItems_timed (item : TimedItem) (rest : List TrackItem) :
    timedItems (.timed item :: rest) = item :: timedItems rest := rfl

@[simp] theorem timedItems_transition (transition : Transition) (rest : List TrackItem) :
    timedItems (.transition transition :: rest) = timedItems rest := rfl

@[simp] theorem transitionsOf_nil : transitionsOf [] = [] := rfl

@[simp] theorem transitionsOf_timed (item : TimedItem) (rest : List TrackItem) :
    transitionsOf (.timed item :: rest) = transitionsOf rest := rfl

@[simp] theorem transitionsOf_transition (transition : Transition) (rest : List TrackItem) :
    transitionsOf (.transition transition :: rest) = transition :: transitionsOf rest := rfl

theorem validateRecordRange_eq_ok {range : TimeRange} {editRate : Timebase} {allowEmpty : Bool}
    {u : Unit} :
    validateRecordRange range editRate allowEmpty = .ok u ↔
      range.timebase = editRate ∧ range.start.isNegative = false ∧
        (allowEmpty = true ∨ range.isEmpty = false) := by
  unfold validateRecordRange
  simp only [bind_eq_ok, rejectIf_eq_ok]
  constructor
  · rintro ⟨_, htb, _, hneg, hempty⟩
    refine ⟨not_not.1 htb, by simpa using hneg, ?_⟩
    cases allowEmpty with
    | true => exact .inl rfl
    | false => exact .inr (by simpa using hempty)
  · rintro ⟨htb, hneg, hempty⟩
    refine ⟨(), not_not.2 htb, (), by simp [hneg], ?_⟩
    rcases hempty with h | h <;> simp [h]

/-- The duration check repeats what every `Clip` carries. -/
theorem TimedItem.validateDurations_eq_ok (item : TimedItem) : item.validateDurations = .ok () := by
  cases item with
  | clip value => exact rejectIf_eq_ok.2 (not_not.2 value.ranges.synchronized)
  | gap value => rfl
  | generator value => rfl
  | caption value => rfl

theorem TimedItem.validate_eq_ok {item : TimedItem} {editRate : Timebase} {u : Unit} :
    item.validate editRate = .ok u ↔
      item.Valid editRate ∧ item.recordRange.start.isNegative = false := by
  unfold TimedItem.validate
  simp only [bind_eq_ok, validateRecordRange_eq_ok]
  constructor
  · rintro ⟨_, htexts, _, ⟨hclock, hneg, hempty⟩, -⟩
    exact ⟨⟨htexts, hclock, hempty⟩, hneg⟩
  · rintro ⟨⟨htexts, hclock, hempty⟩, hneg⟩
    exact ⟨(), htexts, (), ⟨hclock, hneg, hempty⟩, item.validateDurations_eq_ok⟩

theorem validateTransition_eq_ok {previous next : Option TrackItem} {transition : Transition}
    {editRate : Timebase} {u : Unit} :
    validateTransition previous transition next editRate = .ok u ↔
      transition.Valid editRate ∧ ∃ before after, previous = some (.timed before) ∧
        next = some (.timed after) ∧ transition.Joins before after := by
  unfold validateTransition
  simp only [bind_eq_ok, requireText_eq_ok, rejectIf_eq_ok, okOr_eq_ok, not_or, not_not, not_lt]
  constructor
  · rintro ⟨_, hnamed, _, ⟨hfrom, hto⟩, _, hzero, p, rfl, n, rfl, pr, hpr, nr, hnr, _, hids, hfits⟩
    refine ⟨⟨hnamed, hfrom, hto, hzero⟩, ?_⟩
    cases p with
    | transition _ => cases hpr
    | timed before =>
        cases n with
        | transition _ => cases hnr
        | timed after =>
            cases hpr
            cases hnr
            exact ⟨before, after, rfl, rfl, hids.1, hids.2, hfits.1, hfits.2⟩
  · rintro ⟨⟨hnamed, hfrom, hto, hzero⟩, before, after, rfl, rfl, hjoins⟩
    exact ⟨(), hnamed, (), ⟨hfrom, hto⟩, (), hzero, _, rfl, _, rfl, _, rfl, _, rfl, (),
      ⟨hjoins.fromId, hjoins.toId⟩, hjoins.fromFits, hjoins.toFits⟩

/-- The walk from `priorEnd` succeeds exactly when the items continue a well-formed track. -/
theorem validate_walk_eq_ok_iff {editRate : Timebase} {items : List TrackItem}
    {previous : Option TrackItem} {objectIds result : Finset EditorialObjectId}
    {priorEnd : RationalTime} (hprior : 0 ≤ priorEnd.seconds) :
    (validateItems editRate previous items objectIds priorEnd = .ok result ∧
        validateTransitionOverlap previous items = .ok ()) ↔
      (∀ item ∈ timedItems items, item.Valid editRate) ∧
      (∀ transition ∈ transitionsOf items, transition.Valid editRate) ∧
      (∃ trackEnd, Tiles TimedItem.lo TimedItem.hi priorEnd.seconds (timedItems items) trackEnd) ∧
      SeamsFit previous items ∧ (items.map TrackItem.id).Nodup ∧
      (∀ id ∈ items.map TrackItem.id, id ∉ objectIds) ∧
      result = objectIds ∪ (items.map TrackItem.id).toFinset := by
  induction items generalizing previous objectIds priorEnd with
  | nil =>
      simp [validateItems, validateTransitionOverlap, SeamsFit, pure, Except.pure, eq_comm]
  | cons item rest ih =>
      have hids : ∀ tail : Finset EditorialObjectId,
          insert item.id objectIds ∪ tail = objectIds ∪ insert item.id tail := by
        intro tail
        ext id
        simp [or_left_comm]
      have hfresh : item.id ∉ objectIds →
          (((rest.map TrackItem.id).Nodup ∧ ∀ id ∈ rest.map TrackItem.id,
              id ∉ insert item.id objectIds) ↔
            ((item :: rest).map TrackItem.id).Nodup ∧
              ∀ id ∈ (item :: rest).map TrackItem.id, id ∉ objectIds) := by
        intro hnew
        simp only [Finset.mem_insert, not_or, List.map_cons, List.nodup_cons,
          List.forall_mem_cons]
        constructor
        · rintro ⟨hnodup, hrest⟩
          exact ⟨⟨fun hmem => (hrest _ hmem).1 rfl, hnodup⟩, hnew, fun id hid => (hrest id hid).2⟩
        · rintro ⟨⟨hnot, hnodup⟩, -, hrest⟩
          exact ⟨hnodup, fun id hid => ⟨fun heq => hnot (heq ▸ hid), hrest id hid⟩⟩
      cases item with
      | transition transition =>
          have hstep := fun (ids : Finset EditorialObjectId) =>
            @ih (some (.transition transition)) ids _ hprior
          simp only [validateItems, validateItem, validateTransitionOverlap, bind_eq_ok,
            rejectIf_eq_ok, pure_eq_ok, validateTransition_eq_ok, timedItems_transition,
            transitionsOf_transition, SeamsFit, List.forall_mem_cons, List.map_cons,
            List.toFinset_cons]
          constructor
          · rintro ⟨⟨_, hnew, _, ⟨_, ⟨hvalid, hjoin⟩, rfl⟩, hwalk⟩, hoverlap⟩
            obtain ⟨h₁, h₂, h₃, h₄, h₅, h₆, h₇⟩ := (hstep _).1 ⟨hwalk, hoverlap⟩
            obtain ⟨hnodup, hdisj⟩ := (hfresh hnew).1 ⟨h₅, h₆⟩
            simp only [List.map_cons, List.forall_mem_cons] at hnodup hdisj
            exact ⟨h₁, ⟨hvalid, h₂⟩, h₃, ⟨hjoin, h₄⟩, hnodup, hdisj, by rw [h₇, hids]⟩
          · rintro ⟨h₁, ⟨hvalid, h₂⟩, h₃, ⟨hjoin, h₄⟩, hnodup, hdisj, h₇⟩
            obtain ⟨h₅, h₆⟩ := (hfresh hdisj.1).2
              ⟨by simpa using hnodup, by simpa using hdisj⟩
            obtain ⟨hwalk, hoverlap⟩ := (hstep _).2 ⟨h₁, h₂, h₃, h₄, h₅, h₆, by rw [h₇, hids]⟩
            exact ⟨⟨(), hdisj.1, _, ⟨(), ⟨hvalid, hjoin⟩, rfl⟩, hwalk⟩, hoverlap⟩
      | timed timed =>
          have hend : timed.lo = priorEnd.seconds → 0 ≤ timed.recordRange.endExclusive.seconds :=
            fun hlo => le_trans (hlo ▸ hprior) timed.lo_le_hi
          have hneg : timed.lo = priorEnd.seconds → timed.recordRange.start.isNegative = false := by
            intro hlo
            rw [← Bool.not_eq_true, RationalTime.isNegative_iff_seconds, not_lt]
            exact hprior.trans_eq hlo.symm
          simp only [validateItems, validateItem, validateTransitionOverlap, requireContiguous,
            bind_eq_ok, rejectIf_eq_ok, pure_eq_ok, TimedItem.validate_eq_ok, timedItems_timed,
            transitionsOf_timed, SeamsFit, List.forall_mem_cons, List.map_cons,
            List.toFinset_cons, tiles_cons, not_not, not_lt, RationalTime.equiv_iff_seconds]
          constructor
          · rintro ⟨⟨_, hnew, _, ⟨_, ⟨hvalid, -⟩, _, hlo, rfl⟩, hwalk⟩, _, hfits, hoverlap⟩
            obtain ⟨h₁, h₂, ⟨trackEnd, h₃⟩, h₄, h₅, h₆, h₇⟩ := (ih (hend hlo)).1 ⟨hwalk, hoverlap⟩
            obtain ⟨hnodup, hdisj⟩ := (hfresh hnew).1 ⟨h₅, h₆⟩
            simp only [List.map_cons, List.forall_mem_cons] at hnodup hdisj
            exact ⟨⟨hvalid, h₁⟩, h₂, ⟨trackEnd, hlo, timed.lo_le_hi, h₃⟩, ⟨hfits, h₄⟩, hnodup,
              hdisj, by rw [h₇, hids]⟩
          · rintro ⟨⟨hvalid, h₁⟩, h₂, ⟨trackEnd, hlo, -, h₃⟩, ⟨hfits, h₄⟩, hnodup, hdisj, h₇⟩
            obtain ⟨h₅, h₆⟩ := (hfresh hdisj.1).2
              ⟨by simpa using hnodup, by simpa using hdisj⟩
            obtain ⟨hwalk, hoverlap⟩ := (ih (hend hlo)).2
              ⟨h₁, h₂, ⟨trackEnd, h₃⟩, h₄, h₅, h₆, by rw [h₇, hids]⟩
            exact ⟨⟨(), hdisj.1, _, ⟨(), ⟨hvalid, hneg hlo⟩, (), hlo, rfl⟩, hwalk⟩, (), hfits,
              hoverlap⟩

/-- `validate_track` accepts a track exactly when it is well formed and its identities are
pairwise distinct and new. -/
theorem validateTrack_eq_ok_iff {track : Track} {objectIds result : Finset EditorialObjectId} :
    validateTrack track objectIds = .ok result ↔
      track.WellFormed ∧ track.objectIds.Nodup ∧ (∀ id ∈ track.objectIds, id ∉ objectIds) ∧
        result = objectIds ∪ track.objectIds.toFinset := by
  have hwalk := @validate_walk_eq_ok_iff track.timebase track.items none objectIds result
    (RationalTime.zero track.timebase) (by simp)
  rw [RationalTime.seconds_zero] at hwalk
  unfold validateTrack
  simp only [bind_eq_ok, requireText_eq_ok, pure_eq_ok]
  constructor
  · rintro ⟨_, hnamed, ids, hitems, _, hoverlap, rfl⟩
    obtain ⟨h₁, h₂, h₃, h₄, h₅, h₆, h₇⟩ := hwalk.1 ⟨hitems, hoverlap⟩
    exact ⟨⟨hnamed, h₁, h₂, h₃, h₄⟩, h₅, h₆, h₇⟩
  · rintro ⟨⟨hnamed, h₁, h₂, h₃, h₄⟩, h₅, h₆, h₇⟩
    obtain ⟨hitems, hoverlap⟩ := hwalk.2 ⟨h₁, h₂, h₃, h₄, h₅, h₆, h₇⟩
    exact ⟨(), hnamed, result, hitems, (), hoverlap, rfl⟩

end Editorial
end Superi

import Superi.Timeline.EditLaws

/-!
# EditRebuild — re-threaded transitions fit their neighbours

Whatever timed list an operation produces, `rebuildWithTransitions` puts back only transitions
that join the two items they name, fit into both, and do not overlap inside an item.  Every
operation therefore owes nothing but its timed list: `finishEdit_evolves` turns a list that is
valid, tiles the track from zero and has distinct identities into a well-formed track.
-/

namespace Superi
namespace Editorial

open Core Result Tiling

/-! ## Lists of items with the transition in front of each -/

/-- The invariant of the boundary list behind `item`: every kept transition was supplied, joins
its neighbours, and leaves room for the one before it. -/
def Threaded (transitions : List Transition) :
    Option Transition → TimedItem → List (Option Transition × TimedItem) → Prop
  | _, _, [] => True
  | incoming, item, (boundary, next) :: rest =>
      (∀ transition, boundary = some transition →
        transition ∈ transitions ∧ transition.Joins item next) ∧
      (∀ into out, incoming = some into → boundary = some out →
        into.toOffset.value + out.fromOffset.value ≤ item.recordRange.duration.value) ∧
      Threaded transitions boundary next rest

/-- Boundaries whose transitions were supplied and join their neighbours. -/
def Linked (transitions : List Transition) :
    TimedItem → List (Option Transition × TimedItem) → Prop
  | _, [] => True
  | item, (boundary, next) :: rest =>
      (∀ transition, boundary = some transition →
        transition ∈ transitions ∧ transition.Joins item next) ∧
      Linked transitions next rest

theorem fit_findBoundaries_linked {editRate : Timebase} {transitions : List Transition}
    (htr : ∀ transition ∈ transitions, transition.Valid editRate) :
    ∀ {first : TimedItem} {rest : List TimedItem},
      (∀ item ∈ first :: rest, item.recordRange.timebase = editRate) →
      Linked transitions first (fitBoundaries first (findBoundaries transitions first rest))
  | _, [], _ => trivial
  | first, next :: rest, hclock => by
      refine ⟨fun transition hsome => ?_,
        fit_findBoundaries_linked htr fun item hitem => hclock item (List.mem_cons_of_mem _ hitem)⟩
      unfold fitBoundary at hsome
      split at hsome
      · cases hsome
      · rename_i found hfound
        split at hsome
        · cases hsome
        · rename_i hfits
          cases hsome
          have hmem := List.mem_of_find?_eq_some hfound
          have hids := List.find?_some hfound
          simp only [decide_eq_true_eq] at hids
          have hfirst := hclock first (by simp)
          have hnext := hclock next (by simp)
          obtain ⟨-, hfrom, hto, -⟩ := htr transition hmem
          rw [not_or] at hfits
          refine ⟨hmem, hids.1, hids.2, ?_, ?_⟩
          · rw [Duration.value_le_iff_seconds (by rw [hfrom, TimedItem.duration_timebase, hfirst])]
            exact not_lt.1 fun hlt => hfits.1 (Duration.lt_iff_seconds.2 hlt)
          · rw [Duration.value_le_iff_seconds (by rw [hto, TimedItem.duration_timebase, hnext])]
            exact not_lt.1 fun hlt => hfits.2 (Duration.lt_iff_seconds.2 hlt)

/-- The overlap test either keeps the outgoing transition or drops it, and what it keeps leaves
room for the incoming one. -/
theorem dropOverlap_spec {editRate : Timebase} {incoming outgoing result : Option Transition}
    {item : TimedItem} (hin : ∀ into, incoming = some into → into.Valid editRate)
    (hout : ∀ out, outgoing = some out → out.Valid editRate)
    (hclock : item.recordRange.timebase = editRate)
    (h : dropOverlap incoming item outgoing = .ok result) :
    (∀ out, result = some out → outgoing = some out) ∧
      ∀ into out, incoming = some into → result = some out →
        into.toOffset.value + out.fromOffset.value ≤ item.recordRange.duration.value := by
  unfold dropOverlap at h
  split at h
  · rename_i into out
    simp only [bind_eq_ok, pure_eq_ok] at h
    obtain ⟨combined, hcombined, hresult⟩ := h
    split at hresult
    · subst hresult
      exact ⟨(fun _ hnone => by cases hnone), (fun _ _ _ hnone => by cases hnone)⟩
    · rename_i hroom
      subst hresult
      refine ⟨fun _ h => h, fun into' out' hinto hout' => ?_⟩
      cases hinto
      cases hout'
      obtain ⟨-, hsec⟩ := RationalTime.checkedAddAt_spec hcombined
      have hsum : into.toOffset.seconds + out.fromOffset.seconds ≤
          item.recordRange.duration.seconds := by
        have hle := not_lt.1 fun hlt => hroom (RationalTime.lt_iff_seconds.2 hlt)
        rwa [hsec] at hle
      have hto := (hin into rfl).toClock
      have hfrom := (hout out rfl).fromClock
      have hdur := item.duration_timebase.trans hclock
      have hunit := editRate.unit_pos
      simp only [Duration.seconds, Duration.rationalTime, RationalTime.seconds, hto, hfrom, hdur,
        ← add_mul] at hsum
      have := le_of_mul_le_mul_right hsum hunit
      exact_mod_cast this
  · rename_i hnone
    rw [pure_eq_ok] at h
    subst h
    refine ⟨fun _ h => h, fun into out hinto hout' => ?_⟩
    exact absurd hout' (hnone into out hinto)

theorem dropOverlaps_threaded {editRate : Timebase} {transitions : List Transition}
    (htr : ∀ transition ∈ transitions, transition.Valid editRate) :
    ∀ {incoming : Option Transition} {item : TimedItem}
      {boundaries result : List (Option Transition × TimedItem)},
      (∀ into, incoming = some into → into.Valid editRate) →
      (∀ i ∈ item :: boundaries.map Prod.snd, i.recordRange.timebase = editRate) →
      Linked transitions item boundaries → dropOverlaps incoming item boundaries = .ok result →
      Threaded transitions incoming item result ∧ result.map Prod.snd = boundaries.map Prod.snd
  | _, _, [], result, _, _, _, h => by
      simp only [dropOverlaps, pure_eq_ok] at h
      subst h
      exact ⟨trivial, rfl⟩
  | incoming, item, (boundary, next) :: rest, result, hin, hclock, hlinked, h => by
      obtain ⟨hjoin, hrest⟩ := hlinked
      simp only [dropOverlaps, bind_eq_ok, pure_eq_ok] at h
      obtain ⟨outgoing, hout, tail, htail, rfl⟩ := h
      obtain ⟨hsub, hroom⟩ := dropOverlap_spec hin
        (fun out hb => htr out (hjoin out hb).1) (hclock item (by simp)) hout
      obtain ⟨hthreaded, hitems⟩ := dropOverlaps_threaded htr
        (fun out ho => htr out (hjoin out (hsub out ho)).1)
        (fun i hi => hclock i (List.mem_cons_of_mem _ hi)) hrest htail
      refine ⟨⟨fun transition ht => hjoin transition (hsub transition ht), hroom, hthreaded⟩, ?_⟩
      simp [hitems]

/-! ## Weaving -/

@[simp] theorem timedItems_weave (boundaries : List (Option Transition × TimedItem)) :
    timedItems (weave boundaries) = boundaries.map Prod.snd := by
  induction boundaries with
  | nil => rfl
  | cons head rest ih =>
      obtain ⟨boundary, item⟩ := head
      cases boundary <;> simp [weave, ih]

@[simp] theorem transitionsOf_weave (boundaries : List (Option Transition × TimedItem)) :
    transitionsOf (weave boundaries) = boundaries.filterMap Prod.fst := by
  induction boundaries with
  | nil => rfl
  | cons head rest ih =>
      obtain ⟨boundary, item⟩ := head
      cases boundary <;> simp [weave, ih]

/-- A threaded boundary list weaves into items whose seams fit. -/
theorem seamsFit_weave {transitions : List Transition} :
    ∀ {boundaries : List (Option Transition × TimedItem)} {incoming : Option Transition}
      {item : TimedItem} {previous : Option TrackItem},
      Threaded transitions incoming item boundaries →
      incomingOffset previous = (incoming.map fun into => into.toOffset.value).getD 0 →
      (∀ into, incoming = some into →
        into.toOffset.value ≤ item.recordRange.duration.value) →
      SeamsFit previous (.timed item :: weave boundaries)
  | [], incoming, item, previous, _, hprev, hfits => by
      refine ⟨?_, trivial⟩
      rw [hprev]
      cases incoming with
      | none => simp [weave, outgoingOffset]
      | some into => simpa [weave, outgoingOffset] using hfits into rfl
  | (none, next) :: rest, incoming, item, previous, hthreaded, hprev, hfits => by
      obtain ⟨-, -, hrest⟩ := hthreaded
      refine ⟨?_, seamsFit_weave hrest rfl fun _ h => by cases h⟩
      rw [hprev]
      cases incoming with
      | none => simp [weave, outgoingOffset]
      | some into => simpa [weave, outgoingOffset] using hfits into rfl
  | (some out, next) :: rest, incoming, item, previous, hthreaded, hprev, hfits => by
      obtain ⟨hjoin, hroom, hrest⟩ := hthreaded
      have hjoins := (hjoin out rfl).2
      refine ⟨?_, ⟨item, next, rfl, rfl, hjoins⟩, seamsFit_weave hrest rfl fun into hinto => ?_⟩
      · rw [hprev]
        cases incoming with
        | none => simpa [weave, outgoingOffset] using hjoins.fromFits
        | some into => simpa [weave, outgoingOffset] using hroom into out rfl rfl
      · cases hinto
        exact hjoins.toFits

theorem threaded_mem {transitions : List Transition} :
    ∀ {boundaries : List (Option Transition × TimedItem)} {incoming : Option Transition}
      {item : TimedItem}, Threaded transitions incoming item boundaries →
      ∀ transition ∈ boundaries.filterMap Prod.fst,
        transition ∈ transitions ∧ transition.toId ∈ (boundaries.map Prod.snd).map TimedItem.id
  | [], _, _, _, transition, hmem => by cases hmem
  | (none, next) :: rest, incoming, item, hthreaded, transition, hmem => by
      obtain ⟨-, -, hrest⟩ := hthreaded
      have := threaded_mem hrest transition (by simpa using hmem)
      exact ⟨this.1, List.mem_cons_of_mem _ this.2⟩
  | (some out, next) :: rest, incoming, item, hthreaded, transition, hmem => by
      obtain ⟨hjoin, -, hrest⟩ := hthreaded
      rcases List.mem_cons.1 (show transition ∈ out :: rest.filterMap Prod.fst by simpa using hmem)
        with rfl | hmem
      · obtain ⟨hin, hjoins⟩ := hjoin transition rfl
        exact ⟨hin, by simp [hjoins.toId]⟩
      · have := threaded_mem hrest transition hmem
        exact ⟨this.1, List.mem_cons_of_mem _ this.2⟩

/-- No supplied transition is kept twice: each one names the item behind it. -/
theorem threaded_nodup {transitions : List Transition}
    (hnodup : (transitions.map Transition.id).Nodup) :
    ∀ {boundaries : List (Option Transition × TimedItem)} {incoming : Option Transition}
      {item : TimedItem}, Threaded transitions incoming item boundaries →
      ((boundaries.map Prod.snd).map TimedItem.id).Nodup →
      ((boundaries.filterMap Prod.fst).map Transition.id).Nodup
  | [], _, _, _, _ => by simp
  | (none, next) :: rest, incoming, item, hthreaded, hids => by
      obtain ⟨-, -, hrest⟩ := hthreaded
      simpa using threaded_nodup hnodup hrest (List.nodup_cons.1 hids).2
  | (some out, next) :: rest, incoming, item, hthreaded, hids => by
      obtain ⟨hjoin, -, hrest⟩ := hthreaded
      obtain ⟨hnext, hrestIds⟩ := List.nodup_cons.1 hids
      obtain ⟨hout, hjoins⟩ := hjoin out rfl
      have htail := threaded_nodup hnodup hrest hrestIds
      refine List.nodup_cons.2 ⟨fun hmem => ?_, htail⟩
      obtain ⟨other, hother, heq⟩ := List.mem_map.1 hmem
      obtain ⟨hin, hto⟩ := threaded_mem hrest other hother
      have hsame : other = out := List.inj_on_of_nodup_map hnodup hin hout heq
      rw [hsame, hjoins.toId] at hto
      exact hnext hto

/-! ## The re-threaded track -/

theorem TimedItem.id_ne_transition (item : TimedItem) (id : TransitionId) :
    item.id ≠ .transition id := by
  cases item <;> simp [TimedItem.id]

theorem mem_objectIds_iff {items : List TrackItem} {id : EditorialObjectId} :
    id ∈ items.map TrackItem.id ↔
      id ∈ (timedItems items).map TimedItem.id ∨
        ∃ transition ∈ transitionsOf items, id = .transition transition.id := by
  induction items with
  | nil => simp
  | cons item rest ih =>
      cases item with
      | timed item => simp [TrackItem.id, or_assoc, ih]
      | transition transition => simp [TrackItem.id, ih, or_left_comm]

theorem nodup_objectIds_iff {items : List TrackItem} :
    (items.map TrackItem.id).Nodup ↔
      ((timedItems items).map TimedItem.id).Nodup ∧
        ((transitionsOf items).map Transition.id).Nodup := by
  induction items with
  | nil => simp
  | cons item rest ih =>
      cases item with
      | timed item =>
          have hne : ∀ transition ∈ transitionsOf rest, ¬ item.id = .transition transition.id :=
            fun transition _ => item.id_ne_transition transition.id
          simp only [List.map_cons, List.nodup_cons, ih, TrackItem.id, mem_objectIds_iff,
            timedItems_timed, transitionsOf_timed, not_or]
          constructor
          · rintro ⟨⟨hmem, -⟩, htimed, htr⟩
            exact ⟨⟨hmem, htimed⟩, htr⟩
          · rintro ⟨⟨hmem, htimed⟩, htr⟩
            refine ⟨⟨hmem, ?_⟩, htimed, htr⟩
            rintro ⟨transition, ht, heq⟩
            exact hne transition ht heq
      | transition transition =>
          have hne : EditorialObjectId.transition transition.id ∉
              (timedItems rest).map TimedItem.id := by
            intro hmem
            obtain ⟨item, -, heq⟩ := List.mem_map.1 hmem
            exact item.id_ne_transition _ heq
          simp only [List.map_cons, List.nodup_cons, ih, TrackItem.id, mem_objectIds_iff,
            timedItems_transition, transitionsOf_transition, not_or]
          constructor
          · rintro ⟨⟨-, hmem⟩, htimed, htr⟩
            refine ⟨htimed, fun hin => ?_, htr⟩
            obtain ⟨other, hother, heq⟩ := List.mem_map.1 hin
            exact hmem ⟨other, hother, by rw [heq]⟩
          · rintro ⟨htimed, hmem, htr⟩
            refine ⟨⟨hne, ?_⟩, htimed, htr⟩
            rintro ⟨other, hother, heq⟩
            have hid : other.id = transition.id := by simpa using heq.symm
            exact hmem (hid ▸ List.mem_map_of_mem hother)

/-- The invariant of one track inside a valid project. -/
structure Track.Sound (track : Track) : Prop where
  wellFormed : track.WellFormed
  nodup : track.objectIds.Nodup

/-- What an edit that was supplied the identities `supplied` makes of a track. -/
structure Evolves (track track' : Track) (supplied : List EditorialObjectId) : Prop where
  sound : track'.Sound
  id : track'.id = track.id
  name : track'.name = track.name
  semantics : track'.semantics = track.semantics
  ids : ∀ id ∈ track'.objectIds, id ∈ track.objectIds ∨ id ∈ supplied

/-- The timed list an operation hands to `finishEdit`. -/
structure TimedSound (editRate : Timebase) (timed : List TimedItem) : Prop where
  valid : ∀ item ∈ timed, item.Valid editRate
  tiles : ∃ trackEnd, Tiles TimedItem.lo TimedItem.hi 0 timed trackEnd
  nodup : (timed.map TimedItem.id).Nodup

theorem Track.Sound.timed {track : Track} (h : track.Sound) :
    TimedSound track.timebase (timedItems track.items) where
  valid := h.wellFormed.timed
  tiles := h.wellFormed.tiles
  nodup := (nodup_objectIds_iff.1 h.nodup).1

/-- What re-threading returns: the timed list it was given, transitions it was given, and seams
that fit. -/
theorem rebuildWithTransitions_spec {editRate : Timebase} {timed : List TimedItem}
    {transitions : List Transition} {items : List TrackItem} {removed : List TransitionId}
    (htr : ∀ transition ∈ transitions, transition.Valid editRate)
    (hclock : ∀ item ∈ timed, item.recordRange.timebase = editRate)
    (h : rebuildWithTransitions timed transitions = .ok (items, removed)) :
    timedItems items = timed ∧ SeamsFit none items ∧
      (∀ transition ∈ transitionsOf items, transition ∈ transitions) ∧
      ((transitions.map Transition.id).Nodup → (timed.map TimedItem.id).Nodup →
        ((transitionsOf items).map Transition.id).Nodup) := by
  cases timed with
  | nil =>
      simp only [rebuildWithTransitions, pure_eq_ok, Prod.mk.injEq] at h
      obtain ⟨rfl, -⟩ := h
      exact ⟨rfl, trivial, fun _ hmem => (List.not_mem_nil hmem).elim, fun _ _ => by simp⟩
  | cons first rest =>
      simp only [rebuildWithTransitions, bind_eq_ok, pure_eq_ok, Prod.mk.injEq] at h
      obtain ⟨boundaries, hdrop, rfl, -⟩ := h
      have hfit : ∀ (item : TimedItem) (bs : List (Option Transition × TimedItem)),
          (fitBoundaries item bs).map Prod.snd = bs.map Prod.snd := by
        intro item bs
        induction bs generalizing item with
        | nil => rfl
        | cons head tail ih => simp [fitBoundaries, ih]
      have hfind : ∀ (item : TimedItem) (is : List TimedItem),
          (findBoundaries transitions item is).map Prod.snd = is := by
        intro item is
        induction is generalizing item with
        | nil => rfl
        | cons head tail ih => simp [findBoundaries, ih]
      have hlinked := fit_findBoundaries_linked htr hclock
      obtain ⟨hthreaded, hitems⟩ := dropOverlaps_threaded htr (fun _ hnone => by cases hnone)
        (by rw [hfit, hfind]; exact hclock) hlinked hdrop
      rw [hfit, hfind] at hitems
      refine ⟨by simp [hitems], ?_, ?_, ?_⟩
      · exact seamsFit_weave hthreaded rfl fun _ hnone => by cases hnone
      · intro transition hmem
        rw [transitionsOf_weave] at hmem
        exact (threaded_mem hthreaded transition (by simpa using hmem)).1
      · intro hnodup hids
        rw [transitionsOf_weave]
        have := threaded_nodup hnodup hthreaded (by
          rw [hitems]
          exact (List.nodup_cons.1 hids).2)
        simpa using this

/-- The timed items of the finished track are the ones the operation handed over. -/
theorem finishEdit_timed {track track' : Track} {timelineId : TimelineId} {trackId : TrackId}
    {kind : EditKind} {timed : List TimedItem} {report : Except Error EditReport}
    {outcome : EditOutcome} (hsound : track.Sound)
    (hclock : ∀ item ∈ timed, item.recordRange.timebase = track.timebase)
    (h : finishEdit track timelineId trackId kind timed report = .ok (track', outcome)) :
    timedItems track'.items = timed := by
  unfold finishEdit at h
  simp only [bind_eq_ok, pure_eq_ok, Prod.exists, Prod.mk.injEq] at h
  obtain ⟨items, removed, hrebuild, _, -, rfl, -⟩ := h
  exact (rebuildWithTransitions_spec hsound.wellFormed.transitions hclock hrebuild).1

/-- A finished edit changes the items of its track only. -/
theorem finishEdit_replaceItems {track track' : Track} {timelineId : TimelineId}
    {trackId : TrackId} {kind : EditKind} {timed : List TimedItem}
    {report : Except Error EditReport} {outcome : EditOutcome}
    (h : finishEdit track timelineId trackId kind timed report = .ok (track', outcome)) :
    track' = track.replaceItems track'.items := by
  unfold finishEdit at h
  simp only [bind_eq_ok, pure_eq_ok, Prod.exists, Prod.mk.injEq] at h
  obtain ⟨items, removed, -, _, -, rfl, -⟩ := h
  rfl

/-- A sound timed list becomes a sound track. -/
theorem finishEdit_evolves {track track' : Track} {timelineId : TimelineId} {trackId : TrackId}
    {kind : EditKind} {timed : List TimedItem} {report : Except Error EditReport}
    {outcome : EditOutcome} {supplied : List EditorialObjectId} (hsound : track.Sound)
    (htimed : TimedSound track.timebase timed)
    (hids : ∀ item ∈ timed, item.id ∈ track.objectIds ∨ item.id ∈ supplied)
    (h : finishEdit track timelineId trackId kind timed report = .ok (track', outcome)) :
    Evolves track track' supplied ∧ timedItems track'.items = timed := by
  unfold finishEdit at h
  simp only [bind_eq_ok, pure_eq_ok, Prod.exists, Prod.mk.injEq] at h
  obtain ⟨items, removed, hrebuild, _, -, rfl, -⟩ := h
  obtain ⟨hitems, hseams, hsub, hnodup⟩ := rebuildWithTransitions_spec
    hsound.wellFormed.transitions (fun item hmem => (htimed.valid item hmem).clock) hrebuild
  have hold := nodup_objectIds_iff.1 hsound.nodup
  refine ⟨⟨⟨⟨hsound.wellFormed.named, ?_, ?_, ?_, hseams⟩, ?_⟩, rfl, rfl, rfl, ?_⟩, hitems⟩
  · rw [Track.replaceItems_items, hitems]
    exact htimed.valid
  · exact fun transition hmem => hsound.wellFormed.transitions transition (hsub transition hmem)
  · rw [Track.replaceItems_items, hitems]
    exact htimed.tiles
  · exact nodup_objectIds_iff.2 ⟨hitems ▸ htimed.nodup, hnodup hold.2 htimed.nodup⟩
  · intro id hid
    rcases mem_objectIds_iff.1 hid with hmem | ⟨transition, hmem, rfl⟩
    · rw [Track.replaceItems_items, hitems] at hmem
      obtain ⟨item, hitem, rfl⟩ := List.mem_map.1 hmem
      exact hids item hitem
    · exact .inl (mem_objectIds_iff.2 (.inr ⟨transition, hsub transition hmem, rfl⟩))

end Editorial
end Superi

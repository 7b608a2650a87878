import Superi.Audio.Schedule
import Superi.Core.Int128

/-!
# ScheduleLaws — every placed sample is played once

The slices of a window are the excerpts of the placements that meet it, in the canonical order, and
the iterator reaches all of them: no checked step of it can fail on a schedule that was accepted.
Consecutive windows cut the timeline without a hole, so each sample of a track is read from the one
placement over it.
-/

namespace Superi
namespace Audio

open Core Result

/-! ## Placements of one track -/

namespace AudioTimelinePlacement

variable (placement : AudioTimelinePlacement)

/-- The exclusive end of a placement. -/
def stop : Int := placement.recordStart.sample + placement.frameCount

/-- The timeline sample `t` lies under the placement. -/
def Covers (t : Int) : Prop := placement.recordStart.sample ≤ t ∧ t < placement.stop

instance (t : Int) : Decidable (placement.Covers t) := inferInstanceAs (Decidable (_ ∧ _))

/-- The clip and the source sample that the placement puts at `t`. -/
def soundAt (t : Int) : ClipId × Int :=
  (placement.clipId, placement.sourceStart.sample + (t - placement.recordStart.sample))

end AudioTimelinePlacement

namespace AudioTimelineSchedule

variable {sampleRate : Nat} {placements : List AudioTimelinePlacement}
variable {schedule : AudioTimelineSchedule} {timelineId : TimelineId} {revision : Nat}

/-- What the identities met so far say of the placements they were read from. -/
structure Seen (sampleRate : Nat) (placements : List AudioTimelinePlacement)
    (seen : SeenIdentities) : Prop where
  clock : ∀ placement ∈ placements, placement.recordStart.sampleRate = sampleRate
  byOrder : ∀ placement ∈ placements,
    seen.tracksByOrder[placement.trackOrder]? = some placement.trackId
  byTrack : ∀ placement ∈ placements,
    seen.ordersByTrack[placement.trackId]? = some placement.trackOrder

theorem requireSame_eq_ok {α : Type} [DecidableEq α] {existing : Option α} {value : α}
    {message : String} {u : Unit} : requireSame existing value message = .ok u ↔
      ∀ other, existing = some other → other = value := by
  rw [requireSame, rejectIf_eq_ok]
  cases existing with
  | none => simp
  | some other => simp

theorem checkIdentity_seen {seen seen' : SeenIdentities} {placement : AudioTimelinePlacement}
    (hseen : Seen sampleRate placements seen)
    (h : checkIdentity sampleRate seen placement = .ok seen') :
    Seen sampleRate (placements ++ [placement]) seen' := by
  simp only [checkIdentity, bind_eq_ok, rejectIf_eq_ok, requireSame_eq_ok, pure_eq_ok,
    ne_eq, not_not] at h
  obtain ⟨_, hclock, _, horder, _, htrack, _, -, rfl⟩ := h
  refine ⟨?_, ?_, ?_⟩ <;> intro other hother <;> rcases List.mem_append.1 hother with hold | hnew
  · exact hseen.clock other hold
  · rw [List.mem_singleton.1 hnew, hclock]
  · rw [Keyed.getElem?_insert_eq]
    have hprevious := hseen.byOrder other hold
    split
    · rename_i hsame
      rw [hsame] at hprevious
      rw [horder _ hprevious]
    · exact hprevious
  · rw [List.mem_singleton.1 hnew, Keyed.getElem?_insert_eq, if_pos rfl]
  · rw [Keyed.getElem?_insert_eq]
    have hprevious := hseen.byTrack other hold
    split
    · rename_i hsame
      rw [hsame] at hprevious
      rw [htrack _ hprevious]
    · exact hprevious
  · rw [List.mem_singleton.1 hnew, Keyed.getElem?_insert_eq, if_pos rfl]

theorem foldlM_seen {more : List AudioTimelinePlacement} {seen seen' : SeenIdentities}
    (hseen : Seen sampleRate placements seen)
    (h : more.foldlM (checkIdentity sampleRate) seen = .ok seen') :
    Seen sampleRate (placements ++ more) seen' := by
  induction more generalizing placements seen with
  | nil =>
      cases h
      rwa [List.append_nil]
  | cons placement more ih =>
      obtain ⟨mid, hmid, hrest⟩ := bind_eq_ok.1 h
      have hlater := ih (checkIdentity_seen hseen hmid) hrest
      rwa [List.append_assoc] at hlater

/-- One placement after another on the same track: the first ends before the second starts. -/
def Apart (left right : AudioTimelinePlacement) : Prop :=
  left.trackId = right.trackId → left.stop ≤ right.recordStart.sample

/-- What acceptance says of the canonical sequence. -/
structure Accepted (sampleRate : Nat) (placements : List AudioTimelinePlacement) : Prop where
  rate : sampleRate ≠ 0
  clock : ∀ placement ∈ placements, placement.recordStart.sampleRate = sampleRate
  apart : placements.Pairwise Apart

theorem checkNeighbours_apart {left right : AudioTimelinePlacement}
    (h : checkNeighbours left right = .ok ()) : Apart left right := by
  intro htrack
  rw [checkNeighbours, if_pos htrack, bind_eq_ok] at h
  obtain ⟨stop, hstop, hbefore⟩ := h
  rw [rejectIf_eq_ok, not_lt, (checkedSampleEnd_eq_ok.1 hstop).2.2.1] at hbefore
  exact hbefore

/-- Neighbours that keep apart are enough, where the placements are in order and an order stands for
one track. -/
theorem pairwise_apart
    (hsorted : placements.Pairwise fun left right => left.sortKey ≤ right.sortKey)
    (htracks : ∀ left ∈ placements, ∀ right ∈ placements,
      left.trackOrder = right.trackOrder ↔ left.trackId = right.trackId)
    (h : checkOverlaps placements = .ok ()) : placements.Pairwise Apart := by
  induction placements with
  | nil => exact .nil
  | cons left rest ih =>
      obtain ⟨hfirst, hrest⟩ := List.pairwise_cons.1 hsorted
      cases rest with
      | nil => exact List.pairwise_singleton ..
      | cons right rest =>
          obtain ⟨_, hneighbours, hlater⟩ := bind_eq_ok.1 h
          refine List.pairwise_cons.2 ⟨?_, ih hrest
            (fun a ha b hb => htracks a (.tail _ ha) b (.tail _ hb)) hlater⟩
          intro other hother htrack
          have hnext := checkNeighbours_apart hneighbours
          rcases List.mem_cons.1 hother with rfl | hfar
          · exact hnext htrack
          -- what lies between two placements of one track belongs to that track
          · have horder := (htracks left List.mem_cons_self other (.tail _ hother)).2 htrack
            have hle := Prod.Lex.toLex_le_toLex.1 (hfirst right List.mem_cons_self)
            have hle' := Prod.Lex.toLex_le_toLex.1 ((List.pairwise_cons.1 hrest).1 other hfar)
            dsimp only at hle hle'
            have hsame : left.trackOrder = right.trackOrder := by omega
            have hstart : right.recordStart.sample ≤ other.recordStart.sample := by
              rcases hle' with hlt | ⟨-, hle'⟩
              · omega
              · rcases Prod.Lex.toLex_le_toLex.1 hle' with hlt | ⟨heq, -⟩
                · exact hlt.le
                · exact heq.le
            exact (hnext ((htracks left List.mem_cons_self right
              (.tail _ List.mem_cons_self)).1 hsame)).trans hstart

theorem new_accepted (h : new timelineId revision sampleRate placements = .ok schedule) :
    schedule.sampleRate = sampleRate ∧ schedule.placements.Perm placements ∧
      Accepted sampleRate schedule.placements := by
  simp only [new, bind_eq_ok, rejectIf_eq_ok, pure_eq_ok] at h
  obtain ⟨_, hrate, seen, hseen, _, hoverlaps, rfl⟩ := h
  have hperm : (sortPlacements placements).Perm placements := List.perm_insertionSort _ _
  have hknown : Seen sampleRate ([] ++ placements) seen :=
    foldlM_seen ⟨fun _ h => absurd h List.not_mem_nil, fun _ h => absurd h List.not_mem_nil,
      fun _ h => absurd h List.not_mem_nil⟩ hseen
  rw [List.nil_append] at hknown
  refine ⟨rfl, hperm, hrate, fun p hp => hknown.clock p (hperm.mem_iff.1 hp), ?_⟩
  refine pairwise_apart (List.pairwise_insertionSort _ _) ?_ hoverlaps
  intro left hleft right hright
  have hleft := hperm.mem_iff.1 hleft
  have hright := hperm.mem_iff.1 hright
  constructor
  · intro horder
    have heq := hknown.byOrder left hleft
    rw [horder, hknown.byOrder right hright] at heq
    exact (Option.some.inj heq).symm
  · intro htrack
    have heq := hknown.byTrack left hleft
    rw [htrack, hknown.byTrack right hright] at heq
    exact (Option.some.inj heq).symm

/-- At most one placement of a track lies over a sample. -/
theorem covering_length_le (track : TrackId) (t : Int) (h : placements.Pairwise Apart) :
    (placements.filter fun placement =>
      placement.trackId = track ∧ placement.Covers t).length ≤ 1 := by
  induction placements with
  | nil => exact Nat.zero_le _
  | cons left rest ih =>
      obtain ⟨hfirst, hrest⟩ := List.pairwise_cons.1 h
      rw [List.filter_cons]
      split
      · rename_i hcovers
        obtain ⟨htrack, -, hbefore⟩ := of_decide_eq_true hcovers
        have hnone : (rest.filter fun placement =>
            placement.trackId = track ∧ placement.Covers t) = [] := by
          rw [List.filter_eq_nil_iff]
          intro right hright hcovers'
          obtain ⟨htrack', hafter, -⟩ := of_decide_eq_true hcovers'
          exact absurd (hfirst right hright (htrack.trans htrack'.symm)) (by omega)
        rw [hnone]
        exact Nat.le_refl 1
      · exact ih hrest

end AudioTimelineSchedule

/-! ## Excerpts -/

/-- The part of a placement that lies in a window. -/
structure Excerpt (timelineStart timelineEnd : SampleTime) (placement : AudioTimelinePlacement)
    (slice : ScheduledAudioSlice) : Prop where
  track : slice.trackId = placement.trackId
  clip : slice.clipId = placement.clipId
  clock : slice.sourceStart.sampleRate = placement.sourceStart.sampleRate
  offset : (slice.outputOffset : Int) =
    max placement.recordStart.sample timelineStart.sample - timelineStart.sample
  source : slice.sourceStart.sample = placement.sourceStart.sample +
    (max placement.recordStart.sample timelineStart.sample - placement.recordStart.sample)
  count : (slice.frameCount : Int) = min placement.stop timelineEnd.sample -
    max placement.recordStart.sample timelineStart.sample
  nonempty : 0 < slice.frameCount

theorem checkedSample_eq {value : Int} (h : InI64 value) : checkedSample value = some ⟨value, h⟩ :=
  dif_pos h

theorem checkedCount_eq {value : Int} (h : InI64 value) (hnonneg : 0 ≤ value) :
    checkedCount value = some value.toNat := by
  obtain ⟨count, rfl⟩ := Int.eq_ofNat_of_zero_le hnonneg
  rw [checkedCount, checkedSample_eq h]
  rfl

/-- No checked step fails: a window either misses the placement or takes an excerpt of it. -/
theorem intersect_total {timelineStart timelineEnd : SampleTime}
    (placement : AudioTimelinePlacement)
    (hrate : placement.recordStart.sampleRate ≠ 0)
    (hwindow : InI64 (timelineEnd.sample - timelineStart.sample)) :
    ∃ outcome, intersect timelineStart timelineEnd placement = some outcome ∧
      (∀ slice, outcome = some slice → Excerpt timelineStart timelineEnd placement slice) ∧
      (outcome = none → min placement.stop timelineEnd.sample ≤
        max placement.recordStart.sample timelineStart.sample) := by
  have hstart := placement.recordStart_nonneg
  have hrecord := placement.record_fits
  have hsource := placement.source_fits
  have hsource' := placement.sourceStart.inRange
  have hcount : InI64 placement.frameCount := by
    rw [inI64_iff] at hrecord ⊢
    omega
  have hfirst : placement.recordStart.sample ≤
      max placement.recordStart.sample timelineStart.sample := le_max_left ..
  have hfirst' : timelineStart.sample ≤
      max placement.recordStart.sample timelineStart.sample := le_max_right ..
  have hlast : min placement.stop timelineEnd.sample ≤ placement.stop := min_le_left ..
  have hlast' : min placement.stop timelineEnd.sample ≤ timelineEnd.sample := min_le_right ..
  have hstop : placement.stop = placement.recordStart.sample + placement.frameCount := rfl
  simp only [intersect, signedCount_eq_some.2 ⟨hcount, rfl⟩, Option.bind_eq_bind, Option.bind_some,
    checkedSample_eq hrecord]
  rw [← hstop]
  by_cases hmeets : max placement.recordStart.sample timelineStart.sample ≥
      min placement.stop timelineEnd.sample
  · rw [if_pos hmeets]
    exact ⟨none, rfl, (fun _ h => by cases h), fun _ => hmeets⟩
  rw [if_neg hmeets]
  rw [inI64_iff] at hwindow hsource hsource' hrecord
  generalize hmax : max placement.recordStart.sample timelineStart.sample = first at *
  generalize hmin : min placement.stop timelineEnd.sample = last at *
  have hoffset : InI64 (first - timelineStart.sample) := by rw [inI64_iff]; omega
  have hskipped : InI64 (first - placement.recordStart.sample) := by rw [inI64_iff]; omega
  have htaken : InI64 (last - first) := by rw [inI64_iff]; omega
  have hread : InI64 (placement.sourceStart.sample + (first - placement.recordStart.sample)) := by
    rw [inI64_iff]
    omega
  rw [checkedCount_eq hoffset (by omega), checkedSample_eq hskipped, Option.bind_some,
    Option.bind_some, checkedSample_eq hread, Option.bind_some, checkedCount_eq htaken (by omega),
    Option.bind_some, SampleTime.new, if_neg (placement.sameClock ▸ hrate)]
  refine ⟨_, rfl, ?_, fun h => by cases h⟩
  rintro slice ⟨⟩
  refine ⟨rfl, rfl, rfl, ?_, ?_, ?_, ?_⟩
  · rw [hmax]
    exact Int.toNat_of_nonneg (by omega)
  · rw [hmax]
  · rw [hmax, hmin]
    exact Int.toNat_of_nonneg (by omega)
  · dsimp only
    omega

/-! ## The iterator -/

namespace ScheduledAudioSlices

/-- The excerpt of a placement, if the window has one. -/
def excerpt (slices : ScheduledAudioSlices) (placement : AudioTimelinePlacement) :
    Option ScheduledAudioSlice :=
  (intersect slices.timelineStart slices.timelineEnd placement).join

/-- What makes an iterator complete: none of its checked steps fails. -/
structure Sound (slices : ScheduledAudioSlices) : Prop where
  steps : ∀ placement ∈ slices.placements,
    intersect slices.timelineStart slices.timelineEnd placement ≠ none
  index : slices.nextIndex ≤ slices.placements.length

/-- What is still to be yielded. -/
def pending (slices : ScheduledAudioSlices) : List ScheduledAudioSlice :=
  (slices.placements.drop slices.nextIndex).filterMap slices.excerpt

theorem pending_eq {slices : ScheduledAudioSlices} {placement : AudioTimelinePlacement}
    (h : slices.placements[slices.nextIndex]? = some placement) :
    slices.pending = (slices.excerpt placement).toList ++
      { slices with nextIndex := slices.nextIndex + 1 }.pending := by
  obtain ⟨hlt, hget⟩ := List.getElem?_eq_some_iff.1 h
  rw [pending, List.drop_eq_getElem_cons hlt, hget, List.filterMap_cons]
  cases hexcerpt : slices.excerpt placement <;> rfl

/-- One call: the next pending slice, or none when all placements have been considered. -/
theorem next_spec {slices : ScheduledAudioSlices} (h : slices.Sound) :
    slices.next.2.Sound ∧ slices.pending = slices.next.1.toList ++ slices.next.2.pending ∧
      (slices.next.1 = none → slices.next.2.nextIndex = slices.placements.length ∧
        slices.next.2.pending = []) := by
  fun_induction next slices with
  | case1 slices hget =>
      have hend := List.getElem?_eq_none_iff.1 hget
      refine ⟨h, rfl, fun _ => ⟨Nat.le_antisymm h.index hend, ?_⟩⟩
      rw [pending, List.drop_eq_nil_of_le hend]
      rfl
  | case2 slices placement hget advanced hended =>
      exact absurd hended (h.steps placement (List.mem_of_getElem? hget))
  | case3 slices placement hget advanced hskip ih =>
      obtain ⟨hsound, hpending, hdone⟩ := ih ⟨h.steps, (List.getElem?_eq_some_iff.1 hget).1⟩
      refine ⟨hsound, ?_, hdone⟩
      rw [pending_eq hget, excerpt, hskip, ← hpending]
      rfl
  | case4 slices placement hget advanced slice hslice =>
      refine ⟨⟨h.steps, (List.getElem?_eq_some_iff.1 hget).1⟩, ?_, fun h => by cases h⟩
      rw [pending_eq hget, excerpt, hslice]
      rfl

theorem collect_eq {slices : ScheduledAudioSlices} (h : slices.Sound) :
    slices.collect = slices.pending := by
  fun_induction collect slices with
  | case1 slices rest hnext =>
      obtain ⟨-, hpending, hdone⟩ := next_spec h
      rw [hnext] at hpending hdone
      rw [hpending, (hdone rfl).2]
      rfl
  | case2 slices slice rest hnext ih =>
      obtain ⟨hsound, hpending, -⟩ := next_spec h
      rw [hnext] at hsound hpending
      rw [hpending, ih hsound]
      rfl

/-- The iterator after some calls. -/
def after (slices : ScheduledAudioSlices) (calls : Nat) : ScheduledAudioSlices :=
  (fun slices => slices.next.2)^[calls] slices

theorem after_sound {slices : ScheduledAudioSlices} (h : slices.Sound) (calls : Nat) :
    (slices.after calls).Sound := by
  induction calls with
  | zero => exact h
  | succ calls ih =>
      rw [after, Function.iterate_succ_apply']
      exact (next_spec ih).1

end ScheduledAudioSlices
/-! ## One window -/

namespace AudioTimelineScheduler

variable (scheduler : AudioTimelineScheduler)

/-- The timeline sample at a device sample. -/
def timelineAt (device : Int) : Int :=
  scheduler.epoch.timelineAnchor.sample + (device - scheduler.epoch.deviceAnchor.sample)

/-- A window is the image of its device samples. -/
structure Mapped (start : SampleTime) (plan : AudioCallbackPlan) : Prop where
  placements : plan.placements = scheduler.schedule.placements
  deviceEnd : plan.deviceEnd.sample = start.sample + plan.frameCount
  timelineStart : plan.timelineStart.sample = scheduler.timelineAt start.sample
  timelineEnd : plan.timelineEnd.sample = plan.timelineStart.sample + plan.frameCount
  nonempty : 0 < plan.frameCount
  fits : InI64 plan.frameCount

variable {scheduler} {start : SampleTime} {count : Nat} {plan : AudioCallbackPlan}
variable {domain : Except Error Unit}

theorem planCallback_mapped (h : scheduler.planCallback domain start count = .ok plan) :
    scheduler.Mapped start plan := by
  simp only [planCallback, bind_eq_ok, rejectIf_eq_ok, okOr_eq_ok, checkedSampleEnd_eq_ok,
    checkedSample_eq_some, SampleTime.new_eq_ok, pure_eq_ok] at h
  obtain ⟨_, -, _, -, _, hcount, deviceEnd, ⟨hfits, -, hdevice, -⟩, elapsed, helapsed, _, -, value,
    hvalue, timelineStart, ⟨-, hstart, -⟩, timelineEnd, ⟨-, -, hend, -⟩, rfl⟩ := h
  refine ⟨rfl, hdevice, ?_, hend, Nat.pos_of_ne_zero hcount, hfits⟩
  rw [timelineAt, hstart, hvalue, helapsed]

end AudioTimelineScheduler

/-- The clip and the source sample a slice puts at the timeline sample `t`. -/
def ScheduledAudioSlice.soundAt (slice : ScheduledAudioSlice) (windowStart t : Int) :
    Option (ClipId × Int) :=
  if windowStart + slice.outputOffset ≤ t ∧
      t < windowStart + slice.outputOffset + slice.frameCount then
    some (slice.clipId, slice.sourceStart.sample + (t - (windowStart + slice.outputOffset)))
  else none

/-- All that the slices of a window put at `t` on a track. -/
def AudioCallbackPlan.heard (plan : AudioCallbackPlan) (track : TrackId) (t : Int) :
    List (ClipId × Int) :=
  (plan.slices.collect.filter fun slice => slice.trackId = track).filterMap fun slice =>
    slice.soundAt plan.timelineStart.sample t

/-- An excerpt puts at a sample what its placement does, inside the window. -/
theorem Excerpt.soundAt {timelineStart timelineEnd : SampleTime}
    {placement : AudioTimelinePlacement} {slice : ScheduledAudioSlice}
    (h : Excerpt timelineStart timelineEnd placement slice) (t : Int) :
    slice.soundAt timelineStart.sample t =
      if timelineStart.sample ≤ t ∧ t < timelineEnd.sample ∧ placement.Covers t then
        some (placement.soundAt t)
      else none := by
  have hoffset := h.offset
  have hcount := h.count
  have hwithin : timelineStart.sample + slice.outputOffset ≤ t ∧
      t < timelineStart.sample + slice.outputOffset + slice.frameCount ↔
        timelineStart.sample ≤ t ∧ t < timelineEnd.sample ∧ placement.Covers t := by
    rw [AudioTimelinePlacement.Covers]
    omega
  unfold ScheduledAudioSlice.soundAt
  by_cases hsounds : timelineStart.sample ≤ t ∧ t < timelineEnd.sample ∧ placement.Covers t
  · rw [if_pos hsounds, if_pos (hwithin.2 hsounds), h.clip, h.source, hoffset]
    rw [AudioTimelinePlacement.soundAt, Option.some_inj, Prod.mk.injEq]
    exact ⟨rfl, by omega⟩
  · rw [if_neg hsounds, if_neg (mt hwithin.1 hsounds)]

section Window

variable {scheduler : AudioTimelineScheduler} {start : SampleTime} {plan : AudioCallbackPlan}
variable {sampleRate : Nat}

open AudioTimelineSchedule

/-- The outcome of every placement, and with it that the iterator is complete. -/
theorem intersect_plan (haccepted : Accepted sampleRate scheduler.schedule.placements)
    (hmapped : scheduler.Mapped start plan) {placement : AudioTimelinePlacement}
    (h : placement ∈ scheduler.schedule.placements) :
    ∃ outcome, intersect plan.timelineStart plan.timelineEnd placement = some outcome ∧
      (∀ slice, outcome = some slice →
        Excerpt plan.timelineStart plan.timelineEnd placement slice) ∧
      (outcome = none → min placement.stop plan.timelineEnd.sample ≤
        max placement.recordStart.sample plan.timelineStart.sample) := by
  refine intersect_total placement (haccepted.clock placement h ▸ haccepted.rate) ?_
  rw [hmapped.timelineEnd, add_sub_cancel_left]
  exact hmapped.fits

theorem slices_sound (haccepted : Accepted sampleRate scheduler.schedule.placements)
    (hmapped : scheduler.Mapped start plan) : plan.slices.Sound := by
  refine ⟨fun placement h hnone => ?_, Nat.zero_le _⟩
  rw [show plan.slices.placements = _ from hmapped.placements] at h
  obtain ⟨outcome, hsome, -⟩ := intersect_plan haccepted hmapped h
  exact absurd (hsome.symm.trans hnone) (Option.some_ne_none _)

theorem excerpt_eq_some (haccepted : Accepted sampleRate scheduler.schedule.placements)
    (hmapped : scheduler.Mapped start plan) {placement : AudioTimelinePlacement}
    (h : placement ∈ scheduler.schedule.placements) {slice : ScheduledAudioSlice}
    (hslice : plan.slices.excerpt placement = some slice) :
    Excerpt plan.timelineStart plan.timelineEnd placement slice := by
  obtain ⟨outcome, hsome, hexcerpt, -⟩ := intersect_plan haccepted hmapped h
  have heq : plan.slices.excerpt placement = outcome := congrArg Option.join hsome
  exact hexcerpt slice (heq.symm.trans hslice)

/-- What one placement adds at `t`. -/
theorem excerpt_heard (haccepted : Accepted sampleRate scheduler.schedule.placements)
    (hmapped : scheduler.Mapped start plan) {placement : AudioTimelinePlacement}
    (h : placement ∈ scheduler.schedule.placements) (track : TrackId) (t : Int) :
    (((plan.slices.excerpt placement).toList.filter fun slice => slice.trackId = track).filterMap
        fun slice => slice.soundAt plan.timelineStart.sample t) =
      if (plan.timelineStart.sample ≤ t ∧ t < plan.timelineEnd.sample) ∧
          placement.trackId = track ∧ placement.Covers t then [placement.soundAt t]
      else [] := by
  obtain ⟨outcome, hsome, hexcerpt, hmiss⟩ := intersect_plan haccepted hmapped h
  have heq : plan.slices.excerpt placement = outcome := congrArg Option.join hsome
  rw [heq]
  cases outcome with
  | none =>
      have hgap := hmiss rfl
      rw [if_neg (by rw [AudioTimelinePlacement.Covers]; omega)]
      rfl
  | some slice =>
      have hslice := hexcerpt slice rfl
      rw [Option.toList_some, List.filter_cons, hslice.track]
      by_cases htrack : placement.trackId = track
      · rw [if_pos (decide_eq_true htrack), List.filter_nil, List.filterMap_cons, hslice.soundAt t]
        by_cases hsounds : plan.timelineStart.sample ≤ t ∧ t < plan.timelineEnd.sample ∧
            placement.Covers t
        · rw [if_pos hsounds, if_pos ⟨⟨hsounds.1, hsounds.2.1⟩, htrack, hsounds.2.2⟩]
          rfl
        · rw [if_neg hsounds, if_neg fun hall =>
            hsounds ⟨hall.1.1, hall.1.2, hall.2.2⟩]
          rfl
      · rw [if_neg (by simpa using htrack), if_neg fun hall => htrack hall.2.1]
        rfl

/-- A window plays at each of its samples what lies over it, and nothing elsewhere. -/
theorem plan_heard (haccepted : Accepted sampleRate scheduler.schedule.placements)
    (hmapped : scheduler.Mapped start plan) (track : TrackId) (t : Int) :
    plan.heard track t =
      if plan.timelineStart.sample ≤ t ∧ t < plan.timelineEnd.sample then
        (scheduler.schedule.placements.filter fun placement =>
          placement.trackId = track ∧ placement.Covers t).map (·.soundAt t)
      else [] := by
  have hadds : ∀ placement ∈ scheduler.schedule.placements, _ := fun placement h =>
    excerpt_heard haccepted hmapped h track t
  rw [AudioCallbackPlan.heard, ScheduledAudioSlices.collect_eq (slices_sound haccepted hmapped),
    ScheduledAudioSlices.pending, show plan.slices.placements = _ from hmapped.placements,
    show plan.slices.nextIndex = 0 from rfl, List.drop_zero]
  generalize scheduler.schedule.placements = placements at hadds ⊢
  induction placements with
  | nil => split <;> rfl
  | cons placement rest ih =>
      have hhead := hadds placement List.mem_cons_self
      have htail := ih fun other hother => hadds other (.tail _ hother)
      have hsplit : ((placement :: rest).filterMap plan.slices.excerpt) =
          (plan.slices.excerpt placement).toList ++ rest.filterMap plan.slices.excerpt := by
        rw [List.filterMap_cons]
        cases plan.slices.excerpt placement <;> rfl
      rw [hsplit, List.filter_append, List.filterMap_append, hhead, htail, List.filter_cons]
      by_cases hwindow : plan.timelineStart.sample ≤ t ∧ t < plan.timelineEnd.sample
      · simp only [hwindow, and_self, true_and, if_true]
        by_cases hsounds : placement.trackId = track ∧ placement.Covers t
        · rw [if_pos hsounds, if_pos (decide_eq_true hsounds), List.map_cons, List.singleton_append]
        · rw [if_neg hsounds, if_neg (by simpa using hsounds), List.nil_append]
      · rw [if_neg hwindow, if_neg hwindow, if_neg fun hall => hwindow hall.1, List.nil_append]

/-- Every slice lies in its window, and two slices of a track do not overlap there. -/
structure WellPlaced (plan : AudioCallbackPlan) : Prop where
  inside : ∀ slice ∈ plan.slices.collect,
    0 < slice.frameCount ∧ slice.outputOffset + slice.frameCount ≤ plan.frameCount
  apart : plan.slices.collect.Pairwise fun left right =>
    left.trackId = right.trackId → left.outputOffset + left.frameCount ≤ right.outputOffset

theorem slices_wellPlaced (haccepted : Accepted sampleRate scheduler.schedule.placements)
    (hmapped : scheduler.Mapped start plan) : WellPlaced plan := by
  have hcollect : plan.slices.collect =
      scheduler.schedule.placements.filterMap plan.slices.excerpt := by
    rw [ScheduledAudioSlices.collect_eq (slices_sound haccepted hmapped),
      ScheduledAudioSlices.pending, show plan.slices.placements = _ from hmapped.placements]
    rfl
  have hend := hmapped.timelineEnd
  constructor
  · intro slice hslice
    rw [hcollect, List.mem_filterMap] at hslice
    obtain ⟨placement, hmem, hslice⟩ := hslice
    have hexcerpt := excerpt_eq_some haccepted hmapped hmem hslice
    have hoffset := hexcerpt.offset
    have hcount := hexcerpt.count
    exact ⟨hexcerpt.nonempty, by omega⟩
  · rw [hcollect, List.pairwise_filterMap]
    refine haccepted.apart.imp_of_mem ?_
    intro left right hleft hright hapart slice hslice slice' hslice' htrack
    have hexcerpt := excerpt_eq_some haccepted hmapped hleft hslice
    have hexcerpt' := excerpt_eq_some haccepted hmapped hright hslice'
    have hbefore := hapart (by rw [← hexcerpt.track, ← hexcerpt'.track, htrack])
    have hoffset := hexcerpt.offset
    have hcount := hexcerpt.count
    have hoffset' := hexcerpt'.offset
    omega

end Window

/-! ## Consecutive windows -/

/-- Callback windows that follow one another on the device clock up to `stop`, each of them
accepted. -/
inductive Windows (scheduler : AudioTimelineScheduler) (stop : SampleTime) :
    SampleTime → List AudioCallbackPlan → Prop
  | done : Windows scheduler stop stop []
  | next {start : SampleTime} {count : Nat} {plan : AudioCallbackPlan}
      {plans : List AudioCallbackPlan} :
      scheduler.planCallback (.ok ()) start count = .ok plan →
      Windows scheduler stop plan.deviceEnd plans → Windows scheduler stop start (plan :: plans)

/-- All that is put at `t` on a track, window after window. -/
def heard (plans : List AudioCallbackPlan) (track : TrackId) (t : Int) : List (ClipId × Int) :=
  plans.flatMap fun plan => plan.heard track t

/-- The device sample at a timeline sample. -/
def AudioTimelineScheduler.deviceAt (scheduler : AudioTimelineScheduler) (t : Int) : Int :=
  scheduler.epoch.deviceAnchor.sample + (t - scheduler.epoch.timelineAnchor.sample)

open AudioTimelineSchedule

section Runs

variable {scheduler : AudioTimelineScheduler} {start stop : SampleTime}
variable {plans : List AudioCallbackPlan} {sampleRate : Nat}

theorem windows_mapped (h : Windows scheduler stop start plans) :
    ∀ plan ∈ plans, ∃ from', scheduler.Mapped from' plan := by
  induction h with
  | done => exact fun _ hmem => (nomatch hmem)
  | next hplan _ ih =>
      exact List.forall_mem_cons.2 ⟨⟨_, AudioTimelineScheduler.planCallback_mapped hplan⟩, ih⟩

theorem windows_le (h : Windows scheduler stop start plans) : start.sample ≤ stop.sample := by
  induction h with
  | done => exact le_rfl
  | next hplan _ ih =>
      have hmapped := AudioTimelineScheduler.planCallback_mapped hplan
      have hend := hmapped.deviceEnd
      omega

/-- Windows without a gap play exactly the device interval they make up. -/
theorem windows_heard (haccepted : Accepted sampleRate scheduler.schedule.placements)
    (h : Windows scheduler stop start plans) (track : TrackId) (t : Int) :
    heard plans track t =
      if start.sample ≤ scheduler.deviceAt t ∧ scheduler.deviceAt t < stop.sample then
        (scheduler.schedule.placements.filter fun placement =>
          placement.trackId = track ∧ placement.Covers t).map (·.soundAt t)
      else [] := by
  induction h with
  | done => exact (if_neg (by omega)).symm
  | @next start count plan plans hplan hrest ih =>
      have hmapped := AudioTimelineScheduler.planCallback_mapped hplan
      have hend := hmapped.deviceEnd
      have hfirst := hmapped.timelineStart
      have hlast := hmapped.timelineEnd
      have hlater := windows_le hrest
      rw [AudioTimelineScheduler.timelineAt] at hfirst
      rw [heard, List.flatMap_cons, plan_heard haccepted hmapped, ← heard, ih,
        AudioTimelineScheduler.deviceAt]
      -- the sample lies in the first window, behind it, or in no window
      by_cases hhead : plan.timelineStart.sample ≤ t ∧ t < plan.timelineEnd.sample
      · rw [if_pos hhead, if_neg (by omega), if_pos (by omega), List.append_nil]
      · by_cases hlate : plan.deviceEnd.sample ≤ scheduler.epoch.deviceAnchor.sample +
            (t - scheduler.epoch.timelineAnchor.sample)
        · rw [if_neg hhead, List.nil_append]
          exact if_congr (by omega) rfl rfl
        · rw [if_neg hhead, if_neg (by omega), if_neg (by omega), List.append_nil]

end Runs

/-- The placements of the caller that lie over `t` on a track. -/
def covering (placements : List AudioTimelinePlacement) (track : TrackId) (t : Int) :
    List AudioTimelinePlacement :=
  placements.filter fun placement => placement.trackId = track ∧ placement.Covers t

theorem perm_eq_of_length_le {α : Type} {left right : List α} (h : left.Perm right)
    (hle : left.length ≤ 1) : left = right := by
  cases left with
  | nil => exact h.nil_eq
  | cons a rest =>
      cases rest with
      | nil => exact h.singleton_eq
      | cons b rest => exact absurd hle (by simp)

/-- Consecutive windows play every sample of a device interval once, from the one placement over it,
and the slices neither depend on where the interval is cut nor stop before the last placement. -/
theorem schedule_plays_once {timelineId : TimelineId} {revision sampleRate : Nat}
    {placements : List AudioTimelinePlacement} {schedule : AudioTimelineSchedule}
    {epoch : AudioScheduleEpoch} {scheduler : AudioTimelineScheduler} {start stop : SampleTime}
    {plans : List AudioCallbackPlan}
    (hschedule : AudioTimelineSchedule.new timelineId revision sampleRate placements = .ok schedule)
    (hscheduler : AudioTimelineScheduler.new schedule epoch = .ok scheduler)
    (hwindows : Windows scheduler stop start plans) :
    (∀ track t, (covering placements track t).length ≤ 1 ∧
      heard plans track t =
        if start.sample ≤ scheduler.deviceAt t ∧ scheduler.deviceAt t < stop.sample then
          (covering placements track t).map (·.soundAt t)
        else []) ∧
    (∀ split, Windows scheduler stop start split →
      ∀ track t, heard split track t = heard plans track t) ∧
    ∀ plan ∈ plans, WellPlaced plan ∧
      ∀ calls, (plan.slices.after calls).next.1 = none →
        (plan.slices.after calls).next.2.nextIndex =
          (plan.slices.after calls).placements.length := by
  obtain ⟨-, hperm, haccepted⟩ := new_accepted hschedule
  simp only [AudioTimelineScheduler.new, bind_eq_ok, pure_eq_ok] at hscheduler
  obtain ⟨_, -, rfl⟩ := hscheduler
  refine ⟨fun track t => ?_, fun split hsplit track t => ?_, fun plan hmem => ?_⟩
  · have hle := covering_length_le track t haccepted.apart
    have heq := perm_eq_of_length_le (hperm.filter _) hle
    refine ⟨?_, ?_⟩
    · rw [covering, ← heq]
      exact hle
    · rw [windows_heard haccepted hwindows, covering, ← heq]
  · rw [windows_heard haccepted hsplit, windows_heard haccepted hwindows]
  · obtain ⟨start, hmapped⟩ := windows_mapped hwindows plan hmem
    refine ⟨slices_wellPlaced haccepted hmapped, fun calls hnone => ?_⟩
    have hsound := ScheduledAudioSlices.after_sound (slices_sound haccepted hmapped) calls
    exact ((ScheduledAudioSlices.next_spec hsound).2.2 hnone).1

/-- A second of 48 samples. -/
def sampleAt48 (sample : Int) (inRange : InI64 sample) : SampleTime :=
  { sample, sampleRate := 48, inRange }

/-- Two clips on one track, the later one first. -/
def twoClips : List AudioTimelinePlacement :=
  [ { trackId := ⟨1⟩, clipId := ⟨2⟩, trackOrder := 0
      recordStart := sampleAt48 10 (by decide), sourceStart := sampleAt48 50 (by decide)
      frameCount := 5, sameClock := rfl, recordStart_nonneg := by decide
      frameCount_pos := by decide, record_fits := by decide, source_fits := by decide },
    { trackId := ⟨1⟩, clipId := ⟨1⟩, trackOrder := 0
      recordStart := sampleAt48 0 inI64_zero, sourceStart := sampleAt48 100 inI64_hundred
      frameCount := 10, sameClock := rfl, recordStart_nonneg := by decide
      frameCount_pos := by decide, record_fits := by decide, source_fits := by decide } ]

/-- Device sample 1000 plays timeline sample 0. -/
def rolledEpoch : AudioScheduleEpoch :=
  ⟨sampleAt48 1000 (by decide), sampleAt48 0 (by decide), rfl⟩

theorem schedule_plays_once_cut :
    ∃ scheduler stop plans, Windows scheduler stop (sampleAt48 1000 (by decide)) plans ∧
      plans.length = 2 ∧ heard plans ⟨1⟩ 9 = [(⟨1⟩, 109)] ∧ heard plans ⟨1⟩ 12 = [(⟨2⟩, 52)] := by
  obtain ⟨schedule, hschedule⟩ :
      ∃ schedule, AudioTimelineSchedule.new ⟨0⟩ 3 48 twoClips = .ok schedule := ⟨_, rfl⟩
  obtain ⟨hrate, -⟩ := new_accepted hschedule
  obtain ⟨timelineId, revision, rate, placements⟩ := schedule
  cases hrate
  obtain ⟨first, hfirst⟩ : ∃ plan, AudioTimelineScheduler.planCallback
      ⟨⟨timelineId, revision, 48, placements⟩, rolledEpoch⟩
      (.ok ()) (sampleAt48 1000 (by decide)) 11 = .ok plan := ⟨_, rfl⟩
  obtain ⟨second, hsecond⟩ : ∃ plan, AudioTimelineScheduler.planCallback
      ⟨⟨timelineId, revision, 48, placements⟩, rolledEpoch⟩
      (.ok ()) first.deviceEnd 3 = .ok plan := by
    cases hfirst
    exact ⟨_, rfl⟩
  have hwindows := Windows.next hfirst (Windows.next hsecond .done)
  have hscheduler : AudioTimelineScheduler.new ⟨timelineId, revision, 48, placements⟩ rolledEpoch =
      .ok ⟨⟨timelineId, revision, 48, placements⟩, rolledEpoch⟩ := rfl
  obtain ⟨hplayed, -⟩ := schedule_plays_once hschedule hscheduler hwindows
  have hstop : second.deviceEnd.sample = 1014 := by
    have hend := (AudioTimelineScheduler.planCallback_mapped hsecond).deviceEnd
    cases hfirst
    cases hsecond
    exact hend
  refine ⟨_, _, _, hwindows, rfl, ?_, ?_⟩
  · rw [(hplayed ⟨1⟩ 9).2, hstop]
    rfl
  · rw [(hplayed ⟨1⟩ 12).2, hstop]
    rfl

end Audio
end Superi

import Superi.Concurrency.PlaybackClock
import Superi.Core.TimeExact
import Superi.Lib.Machine

/-!
# PlaybackClockLaws — the clock never runs backwards

A read rounds the exact position to the nearest unit of the timeline, which keeps the order of
instants, and a position that becomes an anchor is a whole unit that no later read falls behind.
What a device shows to one thread only goes up, because a position is written only over a smaller
one.
-/

namespace Superi
namespace Concurrency

open Core Result Coherent Rounding

/-! ## Positions -/

section Positions

variable {timelineAnchor position later : RationalTime} {anchor now next : Nat}
  {sampleAnchor observed : I64} {timebase : Timebase}

/-- The exact position `now - anchor` nanoseconds after the timeline anchor. -/
def playbackInstant (timelineAnchor : RationalTime) (anchor now : Nat) : ℚ :=
  timelineAnchor.seconds + (now - anchor : Int) * nanoseconds.unit

/-- The exact position at an observed sample. -/
def audioInstant (timelineAnchor : RationalTime) (sampleAnchor observed : I64)
    (timebase : Timebase) : ℚ :=
  timelineAnchor.seconds + (observed.1 - sampleAnchor.1 : Int) * timebase.unit

/-- A read of the process clock is the exact position, rounded once. -/
theorem playbackPosition_spec (h : playbackPosition timelineAnchor anchor now = .ok position) :
    anchor ≤ now ∧ position.timebase = timelineAnchor.timebase ∧
      NearestEven (playbackInstant timelineAnchor anchor now / timelineAnchor.timebase.unit)
        position.value := by
  simp only [playbackPosition, bind_eq_ok, rejectIf_eq_ok, mapError_eq_ok] at h
  obtain ⟨_, hle, elapsed, helapsed, hadd⟩ := h
  obtain ⟨hvalue, htb⟩ := RationalTime.tryFrom_eq_ok.1 helapsed
  obtain ⟨hptb, hrounds⟩ := RationalTime.checkedBinaryAt_rounds hadd
  refine ⟨not_lt.1 hle, hptb, ?_⟩
  have hseconds : elapsed.seconds = ((now - anchor : Int) : ℚ) * nanoseconds.unit := by
    rw [RationalTime.seconds, hvalue, htb, Nat.cast_sub (not_lt.1 hle)]
  have hinstant : playbackInstant timelineAnchor anchor now =
      RationalTime.BinaryTimeOperation.add.onSeconds timelineAnchor.seconds elapsed.seconds := by
    rw [playbackInstant, ← hseconds]
    rfl
  rw [hinstant]
  exact hrounds

/-- A read of an audio device is exact. -/
theorem audioMasterPosition_spec
    (h : audioMasterPosition timelineAnchor sampleAnchor observed timebase = .ok position) :
    sampleAnchor ≤ observed ∧ position.timebase = timelineAnchor.timebase ∧
      position.seconds = audioInstant timelineAnchor sampleAnchor observed timebase := by
  simp only [audioMasterPosition, bind_eq_ok, rejectIf_eq_ok, mapError_eq_ok,
    RationalTime.tryFrom_eq_ok] at h
  obtain ⟨elapsed, ⟨hvalue, htb⟩, _, hsign, hadd⟩ := h
  obtain ⟨hptb, hseconds⟩ := RationalTime.checkedAddAt_spec hadd
  refine ⟨Subtype.coe_le_coe.1 (by omega), hptb, ?_⟩
  rw [hseconds, RationalTime.seconds_of_timebase_eq htb, hvalue, audioInstant]

theorem playbackPosition_mono (h : playbackPosition timelineAnchor anchor now = .ok position)
    (hlater : playbackPosition timelineAnchor anchor next = .ok later) (hle : now ≤ next) :
    position.value ≤ later.value := by
  obtain ⟨-, -, hrounds⟩ := playbackPosition_spec h
  obtain ⟨-, -, hlaterRounds⟩ := playbackPosition_spec hlater
  refine hrounds.mono hlaterRounds ?_
  have hcast : ((now - anchor : Int) : ℚ) ≤ (next - anchor : Int) := Int.cast_le.2 (by omega)
  have hmul := mul_le_mul_of_nonneg_right hcast nanoseconds.unit_pos.le
  exact div_le_div_of_nonneg_right (add_le_add_right hmul _) timelineAnchor.timebase.unit_pos.le

/-- No read falls behind the anchor, which is a whole unit. -/
theorem anchor_le_playbackPosition
    (h : playbackPosition timelineAnchor anchor now = .ok position) :
    timelineAnchor.value ≤ position.value := by
  obtain ⟨hle, -, hrounds⟩ := playbackPosition_spec h
  have hself : NearestEven (timelineAnchor.value : ℚ) timelineAnchor.value :=
    TimeRounding.rounds_intCast .nearestTiesEven _
  refine hself.mono hrounds ?_
  have helapsed : (0 : ℚ) ≤ (now - anchor : Int) := Int.cast_nonneg (by omega)
  have hmul := mul_nonneg helapsed nanoseconds.unit_pos.le
  rw [le_div_iff₀ timelineAnchor.timebase.unit_pos]
  exact le_add_of_nonneg_right hmul

theorem audioMasterPosition_mono {further : I64}
    (h : audioMasterPosition timelineAnchor sampleAnchor observed timebase = .ok position)
    (hlater : audioMasterPosition timelineAnchor sampleAnchor further timebase = .ok later)
    (hle : observed ≤ further) : position.value ≤ later.value := by
  obtain ⟨-, htb, hseconds⟩ := audioMasterPosition_spec h
  obtain ⟨-, hltb, hlaterSeconds⟩ := audioMasterPosition_spec hlater
  rw [RationalTime.value_le_iff_seconds (htb.trans hltb.symm), hseconds, hlaterSeconds]
  have hvalue : observed.1 ≤ further.1 := hle
  have hcast : ((observed.1 - sampleAnchor.1 : Int) : ℚ) ≤ (further.1 - sampleAnchor.1 : Int) :=
    Int.cast_le.2 (by omega)
  exact add_le_add_right (mul_le_mul_of_nonneg_right hcast timebase.unit_pos.le) _

theorem anchor_le_audioMasterPosition
    (h : audioMasterPosition timelineAnchor sampleAnchor observed timebase = .ok position) :
    timelineAnchor.value ≤ position.value := by
  obtain ⟨hle, htb, hseconds⟩ := audioMasterPosition_spec h
  rw [RationalTime.value_le_iff_seconds htb.symm, hseconds]
  have hvalue : sampleAnchor.1 ≤ observed.1 := hle
  have hcast : (0 : ℚ) ≤ (observed.1 - sampleAnchor.1 : Int) := Int.cast_nonneg (by omega)
  exact le_add_of_nonneg_right (mul_nonneg hcast timebase.unit_pos.le)

end Positions

namespace World

variable {δ π : Type*} [DecidableEq δ] [DecidableEq π]
variable {world next : World δ π} {position later : RationalTime} {device : δ} {index now : Nat}
  {observed : I64} {initial : δ → I64}

/-! ## The invariant -/

/-- No read from here on returns an earlier position. -/
def NotBefore (world : World δ π) (position : RationalTime) : Prop :=
  position.timebase = world.clock.timelineAnchor.timebase ∧
    match world.clock.source with
    | .playback anchor => ∀ now later, world.instant ≤ now →
        playbackPosition world.clock.timelineAnchor anchor now = .ok later →
        position.value ≤ later.value
    | .audioMaster source sampleAnchor => ∀ seen observed later,
        (world.devices source).sample.values[world.view source]? = some seen → seen ≤ observed →
        audioMasterPosition world.clock.timelineAnchor sampleAnchor observed
          (world.devices source).timebase = .ok later →
        position.value ≤ later.value

/-- What the scheduler has seen and told: it can load every device, and the positions go up. -/
structure Forward (world : World δ π) : Prop where
  viewed : ∀ device, world.view device < (world.devices device).sample.values.length
  notBefore : ∀ position ∈ world.positions, world.NotBefore position
  sorted : world.positions.Pairwise fun earlier later =>
    earlier.timebase = later.timebase ∧ earlier.value ≤ later.value

/-- What the publishers have written: every device only goes up, and shows the greatest of what was
accepted and what it started from. -/
structure Published (world : World δ π) (initial : δ → I64) : Prop where
  initial_eq : ∀ device, (world.devices device).sample.initial = initial device
  increasing : ∀ device, (world.devices device).sample.Increasing
  publishing : ∀ publisher publication, world.publishers publisher = some publication →
    publication.current ∈ (world.devices publication.device).sample.values
  accepted_le : ∀ device sample, (device, sample) ∈ world.accepted →
    sample ≤ (world.devices device).sample.latest
  latest_accepted : ∀ device, (world.devices device).sample.latest = initial device ∨
    (device, (world.devices device).sample.latest) ∈ world.accepted

/-! ## Looking at a device -/

omit [DecidableEq π] in
theorem observe_eq_some : world.observe device index = some (next, observed) ↔
    (world.devices device).sample.load (world.view device) index = some observed ∧
      next = { world with view := Function.update world.view device index } := by
  simp only [observe, Option.map_eq_some_iff, Prod.mk.injEq]
  constructor
  · rintro ⟨sample, hload, rfl, rfl⟩
    exact ⟨hload, rfl⟩
  · rintro ⟨hload, rfl⟩
    exact ⟨observed, hload, rfl, rfl⟩

omit [DecidableEq π] in
theorem observe_viewed
    (hviewed : ∀ device, world.view device < (world.devices device).sample.values.length)
    (h : world.observe device index = some (next, observed)) (other : δ) :
    next.view other < (next.devices other).sample.values.length := by
  obtain ⟨hload, rfl⟩ := observe_eq_some.1 h
  by_cases hsame : other = device
  · subst hsame
    simpa using (List.getElem?_eq_some_iff.1 (Location.load_eq_some.1 hload).2).1
  · simpa [hsame] using hviewed other

omit [DecidableEq π] in
/-- Loading from a device can only raise what later reads observe. -/
theorem observe_notBefore (hpublished : world.Published initial)
    (hviewed : ∀ device, world.view device < (world.devices device).sample.values.length)
    (h : world.observe device index = some (next, observed)) (hposition : world.NotBefore position) :
    next.NotBefore position := by
  obtain ⟨hload, rfl⟩ := observe_eq_some.1 h
  obtain ⟨hview, hvalue⟩ := Location.load_eq_some.1 hload
  obtain ⟨htb, hreads⟩ := hposition
  refine ⟨htb, ?_⟩
  dsimp only at hreads ⊢
  split at hreads
  · exact hreads
  · rename_i source sampleAnchor hsource
    intro seen further later hseen hle hread
    by_cases hsame : source = device
    · subst hsame
      rw [Function.update_self, hvalue] at hseen
      cases hseen
      have hbefore := List.getElem?_eq_getElem (hviewed source)
      exact hreads _ further later hbefore
        (le_trans ((hpublished.increasing source).getElem?_mono hview hbefore hvalue) hle) hread
    · rw [Function.update_of_ne hsame] at hseen
      exact hreads seen further later hseen hle hread

/-! ## Reading -/

/-- What a read leaves behind: the scheduler may have seen more, everything else is as it was. -/
structure Looks (world next : World δ π) : Prop where
  devices_eq : next.devices = world.devices
  publishers_eq : next.publishers = world.publishers
  clock_eq : next.clock = world.clock
  instant_eq : next.instant = world.instant
  positions_eq : next.positions = world.positions
  accepted_eq : next.accepted = world.accepted
  viewed : ∀ device, next.view device < (next.devices device).sample.values.length
  notBefore : ∀ position, world.NotBefore position → next.NotBefore position

omit [DecidableEq π] in
theorem observe_looks (hpublished : world.Published initial)
    (hviewed : ∀ device, world.view device < (world.devices device).sample.values.length)
    (h : world.observe device index = some (next, observed)) : Looks world next := by
  have hviewed' := observe_viewed hviewed h
  have hnotBefore : ∀ position, world.NotBefore position → next.NotBefore position :=
    fun position => observe_notBefore hpublished hviewed h
  obtain ⟨-, rfl⟩ := observe_eq_some.1 h
  exact ⟨rfl, rfl, rfl, rfl, rfl, rfl, hviewed', hnotBefore⟩

omit [DecidableEq δ] [DecidableEq π] in
theorem Published.congr (h : world.Published initial) (hdevices : next.devices = world.devices)
    (hpublishers : next.publishers = world.publishers)
    (haccepted : next.accepted = world.accepted) : next.Published initial := by
  refine ⟨?_, ?_, ?_, ?_, ?_⟩
  · rw [hdevices]
    exact h.initial_eq
  · rw [hdevices]
    exact h.increasing
  · rw [hdevices, hpublishers]
    exact h.publishing
  · rw [hdevices, haccepted]
    exact h.accepted_le
  · rw [hdevices, haccepted]
    exact h.latest_accepted

omit [DecidableEq δ] [DecidableEq π] in
theorem Looks.published (hlooks : Looks world next) (h : world.Published initial) : next.Published initial :=
  h.congr hlooks.devices_eq hlooks.publishers_eq hlooks.accepted_eq

/-- How a read relates to the clock it was made on. -/
def Reads (world : World δ π) (now : Nat) (position : RationalTime) : Prop :=
  position.timebase = world.clock.timelineAnchor.timebase ∧
    match world.clock.source with
    | .playback anchor => anchor ≤ now ∧
        NearestEven (playbackInstant world.clock.timelineAnchor anchor now /
          world.clock.timelineAnchor.timebase.unit) position.value
    | .audioMaster source sampleAnchor => ∃ observed ∈ (world.devices source).sample.values,
        position.seconds = audioInstant world.clock.timelineAnchor sampleAnchor observed
          (world.devices source).timebase

omit [DecidableEq π] in
/-- A successful read is not before any earlier one, and no later one is before it. -/
theorem positionAt_spec {result : Except Error RationalTime} (hpublished : world.Published initial)
    (hviewed : ∀ device, world.view device < (world.devices device).sample.values.length)
    (hinstant : world.instant = now)
    (h : world.positionAt now index = some (next, result)) :
    Looks world next ∧ ∀ position, result = .ok position →
      world.Reads now position ∧ next.NotBefore position ∧
        ∀ earlier, world.NotBefore earlier →
          earlier.timebase = position.timebase ∧ earlier.value ≤ position.value := by
  unfold positionAt at h
  split at h
  · rename_i anchor hsource
    cases h
    refine ⟨⟨rfl, rfl, rfl, rfl, rfl, rfl, hviewed, fun _ => id⟩, ?_⟩
    intro position hposition
    obtain ⟨hle, htb, hrounds⟩ := playbackPosition_spec hposition
    refine ⟨⟨htb, ?_⟩, ⟨htb, ?_⟩, ?_⟩
    · rw [hsource]
      exact ⟨hle, hrounds⟩
    · rw [hsource]
      intro later other hlater hother
      exact playbackPosition_mono hposition hother (hinstant ▸ hlater)
    · rintro earlier ⟨hetb, hreads⟩
      rw [hsource] at hreads
      exact ⟨hetb.trans htb.symm, hreads now position hinstant.le hposition⟩
  · rename_i source sampleAnchor hsource
    obtain ⟨⟨looked, observed⟩, hobserve, hresult⟩ := Option.map_eq_some_iff.1 h
    cases hresult
    have hlooks := observe_looks hpublished hviewed hobserve
    obtain ⟨hload, hlooked⟩ := observe_eq_some.1 hobserve
    obtain ⟨hview, hvalue⟩ := Location.load_eq_some.1 hload
    refine ⟨hlooks, ?_⟩
    intro position hposition
    obtain ⟨-, htb, hseconds⟩ := audioMasterPosition_spec hposition
    refine ⟨⟨htb, ?_⟩, ⟨?_, ?_⟩, ?_⟩
    · rw [hsource]
      exact ⟨observed, Location.mem_of_load hload, hseconds⟩
    · rw [hlooks.clock_eq]
      exact htb
    · rw [hlooks.clock_eq, hsource]
      intro seen further later hseen hle hlater
      rw [hlooks.devices_eq] at hseen hlater
      have hindex : next.view source = index := by
        rw [hlooked]
        exact Function.update_self _ _ _
      rw [hindex, hvalue] at hseen
      cases hseen
      exact audioMasterPosition_mono hposition hlater hle
    · rintro earlier ⟨hetb, hreads⟩
      rw [hsource] at hreads
      have hbefore := List.getElem?_eq_getElem (hviewed source)
      exact ⟨hetb.trans htb.symm, hreads _ observed position hbefore
        ((hpublished.increasing source).getElem?_mono hview hbefore hvalue) hposition⟩

/-! ## The scheduler's steps -/

omit [DecidableEq δ] [DecidableEq π] in
/-- Nothing is read before the anchor. -/
theorem notBefore_of_le_anchor (htb : position.timebase = world.clock.timelineAnchor.timebase)
    (hle : position.value ≤ world.clock.timelineAnchor.value) : world.NotBefore position := by
  refine ⟨htb, ?_⟩
  split
  · intro now later _ hlater
    exact hle.trans (anchor_le_playbackPosition hlater)
  · intro seen observed later _ _ hlater
    exact hle.trans (anchor_le_audioMasterPosition hlater)

omit [DecidableEq δ] [DecidableEq π] in
theorem Forward.of_looks (hlooks : Looks world next) (h : world.Forward) : next.Forward := by
  refine ⟨hlooks.viewed, ?_, ?_⟩
  · rw [hlooks.positions_eq]
    exact fun position hposition => hlooks.notBefore position (h.notBefore position hposition)
  · rw [hlooks.positions_eq]
    exact h.sorted

omit [DecidableEq δ] [DecidableEq π] in
/-- A position is told that no earlier one exceeds and no later one falls behind. -/
theorem Forward.tell
    (hviewed : ∀ device, world.view device < (world.devices device).sample.values.length)
    (hsorted : world.positions.Pairwise fun earlier later =>
      earlier.timebase = later.timebase ∧ earlier.value ≤ later.value)
    (hbefore : ∀ earlier ∈ world.positions, world.NotBefore earlier)
    (hle : ∀ earlier ∈ world.positions,
      earlier.timebase = position.timebase ∧ earlier.value ≤ position.value)
    (hposition : world.NotBefore position) : (world.tell position).Forward := by
  refine ⟨hviewed, ?_, ?_⟩
  · intro earlier hearlier
    rcases List.mem_append.1 hearlier with hold | hnew
    · exact hbefore earlier hold
    · rw [List.mem_singleton.1 hnew]
      exact hposition
  · refine List.pairwise_append.2 ⟨hsorted, List.pairwise_singleton _ _, ?_⟩
    intro earlier hearlier later hlater
    rw [List.mem_singleton.1 hlater]
    exact hle earlier hearlier

omit [DecidableEq δ] [DecidableEq π] in
/-- The same where the position becomes the anchor of another source. -/
theorem Forward.switch {source : ClockSource δ}
    (hviewed : ∀ device, world.view device < (world.devices device).sample.values.length)
    (hsorted : world.positions.Pairwise fun earlier later =>
      earlier.timebase = later.timebase ∧ earlier.value ≤ later.value)
    (hle : ∀ earlier ∈ world.positions,
      earlier.timebase = position.timebase ∧ earlier.value ≤ position.value) :
    ({ world with clock := ⟨position, source⟩ }.tell position).Forward := by
  refine Forward.tell hviewed hsorted ?_ hle (notBefore_of_le_anchor rfl le_rfl)
  intro earlier hearlier
  obtain ⟨htb, hvalue⟩ := hle earlier hearlier
  exact notBefore_of_le_anchor htb hvalue

omit [DecidableEq π] in
/-- A read that succeeds, after what it has looked at. -/
theorem positionAt_ok (hpublished : world.Published initial) (hforward : world.Forward)
    (hinstant : world.instant = now)
    (h : world.positionAt now index = some (next, .ok position)) :
    next.Published initial ∧ next.Forward ∧ next.NotBefore position ∧
      ∀ earlier ∈ next.positions,
        earlier.timebase = position.timebase ∧ earlier.value ≤ position.value := by
  obtain ⟨hlooks, hok⟩ := positionAt_spec hpublished hforward.viewed hinstant h
  obtain ⟨-, hnotBefore, hle⟩ := hok position rfl
  refine ⟨hlooks.published hpublished, hforward.of_looks hlooks, hnotBefore, ?_⟩
  rw [hlooks.positions_eq]
  exact fun earlier hearlier => hle earlier (hforward.notBefore earlier hearlier)

omit [DecidableEq π] in
/-- A read that fails changes nothing but what was looked at. -/
theorem positionAt_error {error : Error} (hpublished : world.Published initial) (hforward : world.Forward)
    (hinstant : world.instant = now)
    (h : world.positionAt now index = some (next, .error error)) :
    next.Published initial ∧ next.Forward := by
  obtain ⟨hlooks, -⟩ := positionAt_spec hpublished hforward.viewed hinstant h
  exact ⟨hlooks.published hpublished, hforward.of_looks hlooks⟩

omit [DecidableEq π] in
theorem read_spec (hpublished : world.Published initial) (hforward : world.Forward)
    (hinstant : world.instant = now) (h : world.read now index = some next) :
    next.Published initial ∧ next.Forward := by
  obtain ⟨⟨mid, result⟩, hposition, hnext⟩ := Option.map_eq_some_iff.1 h
  cases result with
  | error error =>
      cases hnext
      exact positionAt_error hpublished hforward hinstant hposition
  | ok position =>
      cases hnext
      obtain ⟨hmid, hlooked, hnotBefore, hle⟩ := positionAt_ok hpublished hforward hinstant hposition
      exact ⟨hmid.congr rfl rfl rfl,
        Forward.tell hlooked.viewed hlooked.sorted hlooked.notBefore hle hnotBefore⟩

omit [DecidableEq π] in
theorem switchToPlaybackAt_spec (hpublished : world.Published initial) (hforward : world.Forward)
    (hinstant : world.instant = now) (h : world.switchToPlaybackAt now index = some next) :
    next.Published initial ∧ next.Forward := by
  obtain ⟨⟨mid, result⟩, hposition, hnext⟩ := Option.map_eq_some_iff.1 h
  cases result with
  | error error =>
      cases hnext
      exact positionAt_error hpublished hforward hinstant hposition
  | ok position =>
      cases hnext
      obtain ⟨hmid, hlooked, -, hle⟩ := positionAt_ok hpublished hforward hinstant hposition
      exact ⟨hmid.congr rfl rfl rfl, Forward.switch hlooked.viewed hlooked.sorted hle⟩

omit [DecidableEq π] in
theorem switchToAudioMasterAt_spec {source : δ} {anchorIndex : Nat} (hpublished : world.Published initial)
    (hforward : world.Forward) (hinstant : world.instant = now)
    (h : world.switchToAudioMasterAt source now index anchorIndex = some next) :
    next.Published initial ∧ next.Forward := by
  obtain ⟨⟨mid, result⟩, hposition, hnext⟩ := Option.bind_eq_some_iff.1 h
  cases result with
  | error error =>
      cases hnext
      exact positionAt_error hpublished hforward hinstant hposition
  | ok position =>
      obtain ⟨hmid, hlooked, -, hle⟩ := positionAt_ok hpublished hforward hinstant hposition
      obtain ⟨⟨looked, sampleAnchor⟩, hobserve, hswitch⟩ := Option.map_eq_some_iff.1 hnext
      have hlooks := observe_looks hmid hlooked.viewed hobserve
      have hforward' := hlooked.of_looks hlooks
      rw [← hlooks.positions_eq] at hle
      dsimp only at hswitch
      split at hswitch
      · cases hswitch
        exact ⟨(hlooks.published hmid).congr rfl rfl rfl,
          Forward.switch hforward'.viewed hforward'.sorted hle⟩
      · cases hswitch
        exact ⟨hlooks.published hmid, hforward'⟩

omit [DecidableEq δ] [DecidableEq π] in
/-- The process clock goes on. -/
theorem tick_spec (hpublished : world.Published initial) (hforward : world.Forward)
    (h : world.tick now = some next) :
    next.Published initial ∧ next.Forward ∧ next.instant = now := by
  unfold tick at h
  split at h
  · cases h
  · rename_i hle
    cases h
    refine ⟨hpublished.congr rfl rfl rfl, ⟨hforward.viewed, ?_, hforward.sorted⟩, rfl⟩
    intro position hposition
    obtain ⟨htb, hreads⟩ := hforward.notBefore position hposition
    refine ⟨htb, ?_⟩
    dsimp only at hreads ⊢
    split at hreads
    · intro later other hlater hother
      exact hreads later other ((not_lt.1 hle).trans hlater) hother
    · exact hreads

/-! ## The publishers' steps -/

section Publishing

variable {publisher : π} {exchange : Exchange} {current : I64} {result : Except Error AudioClockUpdate}

theorem answer_eq_none : answer observed current = none ↔ current < observed := by
  unfold answer
  split
  · simp_all [le_of_lt]
  · split <;> simp_all [lt_iff_le_and_ne, eq_comm]

theorem answer_eq_ok {update : AudioClockUpdate} (h : answer observed current = some (.ok update)) :
    observed = current := by
  unfold answer at h
  split at h
  · cases h
  · split at h
    · assumption
    · cases h

theorem publishSample_spec (hpublished : world.Published initial) (hforward : world.Forward)
    (h : world.publishSample publisher device observed index = some next) :
    next.Published initial ∧ next.Forward := by
  unfold publishSample at h
  split at h
  · cases h
  · obtain ⟨current, hload, hnext⟩ := Option.map_eq_some_iff.1 h
    cases hnext
    refine ⟨⟨hpublished.initial_eq, hpublished.increasing, ?_, hpublished.accepted_le, hpublished.latest_accepted⟩,
      ⟨hforward.viewed, hforward.notBefore, hforward.sorted⟩⟩
    intro other publication hother
    dsimp only at hother
    by_cases hsame : other = publisher
    · subst hsame
      rw [Function.update_self] at hother
      cases hother
      exact Location.mem_of_load hload
    · rw [Function.update_of_ne hsame] at hother
      exact hpublished.publishing other publication hother

/-- Only new values are written behind the old ones. -/
structure Extends (world next : World δ π) : Prop where
  values_eq : ∀ device, ∃ suffix, (next.devices device).sample.values =
    (world.devices device).sample.values ++ suffix
  timebase_eq : ∀ device, (next.devices device).timebase = (world.devices device).timebase
  clock_eq : next.clock = world.clock
  view_eq : next.view = world.view
  instant_eq : next.instant = world.instant
  positions_eq : next.positions = world.positions

omit [DecidableEq δ] [DecidableEq π] in
/-- The scheduler is not set back by what others publish. -/
theorem Forward.of_extends (hextends : Extends world next) (h : world.Forward) : next.Forward := by
  have hviewed : ∀ device, next.view device < (next.devices device).sample.values.length := by
    intro device
    obtain ⟨suffix, hvalues⟩ := hextends.values_eq device
    have hold := h.viewed device
    rw [hextends.view_eq, hvalues, List.length_append]
    omega
  refine ⟨hviewed, ?_, ?_⟩
  · intro position hposition
    rw [hextends.positions_eq] at hposition
    obtain ⟨htb, hreads⟩ := h.notBefore position hposition
    refine ⟨by rw [hextends.clock_eq, htb], ?_⟩
    rw [hextends.clock_eq]
    split at hreads
    · rw [hextends.instant_eq]
      exact hreads
    · rename_i source sampleAnchor hsource
      rw [hextends.view_eq, hextends.timebase_eq]
      intro seen observed later hseen
      obtain ⟨suffix, hvalues⟩ := hextends.values_eq source
      rw [hvalues, List.getElem?_append_left (h.viewed source)] at hseen
      exact hreads seen observed later hseen
  · rw [hextends.positions_eq]
    exact h.sorted

omit [DecidableEq δ] in
/-- An answered publication is accepted unless it is refused. -/
theorem finish_spec {publication : Publication δ} (hpublished : world.Published initial)
    (hforward : world.Forward) (hcurrent : world.publishers publisher = some publication)
    (hanswer : answer publication.observed publication.current = some result) :
    (world.finish publisher publication result).Published initial ∧
      (world.finish publisher publication result).Forward := by
  have hstill : ∀ other still, Function.update world.publishers publisher none other = some still →
      world.publishers other = some still := by
    intro other still hother
    by_cases hsame : other = publisher
    · subst hsame
      rw [Function.update_self] at hother
      cases hother
    · rwa [Function.update_of_ne hsame] at hother
  refine ⟨⟨hpublished.initial_eq, hpublished.increasing, fun other still hother =>
    hpublished.publishing other still (hstill other still hother), ?_, ?_⟩,
    ⟨hforward.viewed, hforward.notBefore, hforward.sorted⟩⟩
  · intro device sample hsample
    cases result with
    | error error => exact hpublished.accepted_le device sample hsample
    | ok update =>
        rcases List.mem_append.1 hsample with hold | hnew
        · exact hpublished.accepted_le device sample hold
        · cases List.mem_singleton.1 hnew
          rw [answer_eq_ok hanswer]
          exact (hpublished.increasing _).le_latest (hpublished.publishing _ _ hcurrent)
  · intro device
    refine (hpublished.latest_accepted device).imp id fun hold => ?_
    cases result with
    | error error => exact hold
    | ok update => exact List.mem_append_left _ hold

/-- A position that is written is the newest and the greatest. -/
theorem exchange_spec {publication : Publication δ} {sample : Location I64}
    {published : π → δ → Nat} (hpublished : world.Published initial) (hforward : world.Forward)
    (hcurrent : world.publishers publisher = some publication)
    (hlt : publication.current < publication.observed)
    (hexchange : (world.devices publication.device).sample.exchange publication.current
      publication.observed = some sample)
    (hnext : next = { world.finish publisher publication (.ok .advanced) with
      devices := Function.update world.devices publication.device
        { world.devices publication.device with sample }
      published := published }) : next.Published initial ∧ next.Forward := by
  have hvalues := Location.values_of_exchange hexchange
  have hlatest := Location.latest_of_exchange hexchange
  obtain ⟨hwas, hsample⟩ := Location.exchange_eq_some.1 hexchange
  have hdevice : ∀ device, next.devices device = if device = publication.device then
      { world.devices publication.device with sample } else world.devices device := by
    intro device
    rw [hnext]
    exact Function.update_apply _ _ _ _
  have hextends : Extends world next := by
    refine ⟨?_, ?_, ?_, ?_, ?_, ?_⟩
    · intro device
      rw [hdevice]
      split
      · rename_i hsame
        exact ⟨_, hsame ▸ hvalues⟩
      · exact ⟨[], (List.append_nil _).symm⟩
    · intro device
      rw [hdevice]
      split
      · rename_i hsame
        rw [hsame]
        rfl
      · rfl
    all_goals rw [hnext]; rfl
  refine ⟨⟨?_, ?_, ?_, ?_, ?_⟩, hforward.of_extends hextends⟩
  · intro device
    rw [hdevice]
    split
    · rename_i hsame
      rw [hsample, hsame]
      exact hpublished.initial_eq _
    · exact hpublished.initial_eq device
  · intro device
    rw [hdevice]
    split
    · exact (hpublished.increasing _).exchange hlt hexchange
    · exact hpublished.increasing device
  · intro other still hother
    have hold : world.publishers other = some still := by
      rw [hnext] at hother
      by_cases hsame : other = publisher
      · subst hsame
        simp [finish] at hother
      · simpa [finish, hsame] using hother
    obtain ⟨suffix, hsuffix⟩ := hextends.values_eq still.device
    rw [hsuffix]
    exact List.mem_append_left _ (hpublished.publishing other still hold)
  · intro device value hvalue
    have haccepted : next.accepted =
        world.accepted ++ [(publication.device, publication.observed)] := by rw [hnext]; rfl
    rw [haccepted, List.mem_append, List.mem_singleton] at hvalue
    rw [hdevice]
    split
    · rename_i hsame
      rw [hlatest]
      rcases hvalue with hold | hnew
      · have hbound := hpublished.accepted_le device value hold
        rw [hsame, hwas] at hbound
        exact hbound.trans hlt.le
      · cases hnew
        exact le_rfl
    · rename_i hsame
      rcases hvalue with hold | hnew
      · exact hpublished.accepted_le device value hold
      · cases hnew
        exact absurd rfl hsame
  · intro device
    have haccepted : next.accepted =
        world.accepted ++ [(publication.device, publication.observed)] := by rw [hnext]; rfl
    rw [hdevice, haccepted]
    split
    · rename_i hsame
      right
      rw [hlatest, hsame]
      exact List.mem_append_right _ (List.mem_singleton_self _)
    · exact (hpublished.latest_accepted device).imp id (List.mem_append_left _)

theorem tryPublish_spec (hpublished : world.Published initial) (hforward : world.Forward)
    (h : world.tryPublish publisher exchange = some next) : next.Published initial ∧ next.Forward := by
  unfold tryPublish at h
  split at h
  · cases h
  · rename_i publication hcurrent
    dsimp only at h
    split at h
    · rename_i result _ hanswer
      cases h
      exact finish_spec hpublished hforward hcurrent hanswer
    · rename_i hanswer
      obtain ⟨sample, hexchange, hnext⟩ := Option.map_eq_some_iff.1 h
      exact exchange_spec hpublished hforward hcurrent (answer_eq_none.1 hanswer) hexchange
        hnext.symm
    · rename_i index hanswer
      obtain ⟨current, hload, hnext⟩ := Option.map_eq_some_iff.1 h
      cases hnext
      refine ⟨⟨hpublished.initial_eq, hpublished.increasing, ?_, hpublished.accepted_le, hpublished.latest_accepted⟩,
        ⟨hforward.viewed, hforward.notBefore, hforward.sorted⟩⟩
      intro other still hother
      dsimp only at hother
      by_cases hsame : other = publisher
      · subst hsame
        rw [Function.update_self] at hother
        cases hother
        exact Location.mem_of_load hload
      · rw [Function.update_of_ne hsame] at hother
        exact hpublished.publishing other still hother

end Publishing

/-! ## Runs -/

/-- Every step keeps what is published and what was told in order. -/
theorem step_spec {action : Action δ π} (hpublished : world.Published initial)
    (hforward : world.Forward) (h : world.step action = some next) :
    next.Published initial ∧ next.Forward := by
  cases action with
  | publishSample publisher device observed index =>
      exact publishSample_spec hpublished hforward h
  | tryPublish publisher exchange => exact tryPublish_spec hpublished hforward h
  | read now index =>
      obtain ⟨ticked, htick, hread⟩ := Option.bind_eq_some_iff.1 h
      obtain ⟨hpublished', hforward', hinstant⟩ := tick_spec hpublished hforward htick
      exact read_spec hpublished' hforward' hinstant hread
  | switchToPlayback now index =>
      obtain ⟨ticked, htick, hswitch⟩ := Option.bind_eq_some_iff.1 h
      obtain ⟨hpublished', hforward', hinstant⟩ := tick_spec hpublished hforward htick
      exact switchToPlaybackAt_spec hpublished' hforward' hinstant hswitch
  | switchToAudioMaster source now index anchorIndex =>
      obtain ⟨ticked, htick, hswitch⟩ := Option.bind_eq_some_iff.1 h
      obtain ⟨hpublished', hforward', hinstant⟩ := tick_spec hpublished hforward htick
      exact switchToAudioMasterAt_spec hpublished' hforward' hinstant hswitch

/-- Reads and publications, as opposed to switches. -/
def Action.KeepsMode : Action δ π → Prop
  | .publishSample _ _ _ _ => True
  | .tryPublish _ _ => True
  | .read _ _ => True
  | .switchToPlayback _ _ => False
  | .switchToAudioMaster _ _ _ _ => False

omit [DecidableEq π] in
theorem positionAt_clock {result : Except Error RationalTime}
    (h : world.positionAt now index = some (next, result)) : next.clock = world.clock := by
  unfold positionAt at h
  split at h
  · cases h
    rfl
  · obtain ⟨⟨looked, observed⟩, hobserve, hresult⟩ := Option.map_eq_some_iff.1 h
    cases hresult
    obtain ⟨-, rfl⟩ := observe_eq_some.1 hobserve
    rfl

/-- Only switches move the anchors. -/
theorem step_clock {action : Action δ π} (hkeeps : action.KeepsMode)
    (h : world.step action = some next) : next.clock = world.clock := by
  cases action with
  | publishSample publisher device observed index =>
      simp only [step, publishSample] at h
      split at h
      · cases h
      · obtain ⟨current, -, rfl⟩ := Option.map_eq_some_iff.1 h
        rfl
  | tryPublish publisher exchange =>
      simp only [step, tryPublish] at h
      split at h
      · cases h
      · split at h
        · cases h
          rfl
        · obtain ⟨sample, -, rfl⟩ := Option.map_eq_some_iff.1 h
          rfl
        · obtain ⟨current, -, rfl⟩ := Option.map_eq_some_iff.1 h
          rfl
  | read now index =>
      obtain ⟨ticked, htick, hread⟩ := Option.bind_eq_some_iff.1 h
      obtain ⟨⟨mid, result⟩, hposition, hnext⟩ := Option.map_eq_some_iff.1 hread
      have hticked : ticked.clock = world.clock := by
        unfold tick at htick
        split at htick
        · cases htick
        · cases htick
          rfl
      rw [← hticked, ← positionAt_clock hposition]
      cases result with
      | error error =>
          cases hnext
          rfl
      | ok position =>
          cases hnext
          rfl
  | switchToPlayback now index => exact hkeeps.elim
  | switchToAudioMaster source now index anchorIndex => exact hkeeps.elim

theorem run_clock {actions : List (Action δ π)} (hkeeps : ∀ action ∈ actions, action.KeepsMode)
    (h : Machine.run step world actions = some next) : next.clock = world.clock := by
  have hkeep : ∀ {state after : World δ π} {action : Action δ π}, state.clock = world.clock →
      action.KeepsMode → step state action = some after → after.clock = world.clock :=
    fun hstate haction hstep => (step_clock haction hstep).trans hstate
  have hsteps : Machine.EveryStep step (fun _ (action : Action δ π) => action.KeepsMode) world
      actions := by
    rintro before action after reached rfl -
    exact hkeeps action (List.mem_append_right _ List.mem_cons_self)
  exact Machine.invariant_of_run hkeep rfl h hsteps

theorem run_spec {actions : List (Action δ π)} (hpublished : world.Published initial)
    (hforward : world.Forward) (h : Machine.run step world actions = some next) :
    next.Published initial ∧ next.Forward := by
  have hkeep : ∀ {state after : World δ π} {action : Action δ π},
      state.Published initial ∧ state.Forward → step state action = some after →
        after.Published initial ∧ after.Forward :=
    fun hstate hstep => step_spec hstate.1 hstate.2 hstep
  exact Machine.invariant_of_any_run hkeep ⟨hpublished, hforward⟩ h

omit [DecidableEq δ] [DecidableEq π] in
/-- New devices and a new clock. -/
theorem start_spec {devices : δ → AudioMasterClock} (clock : PlaybackClock δ) (instant : Nat)
    (hnew : ∀ device, (devices device).sample.writes = []) :
    (World.start (π := π) devices clock instant).Published
        (fun device => (devices device).sample.initial) ∧
      (World.start (π := π) devices clock instant).Forward := by
  refine ⟨⟨fun _ => rfl, ?_, ?_, ?_, ?_⟩, ⟨?_, ?_, List.Pairwise.nil⟩⟩
  · intro device
    change ((devices device).sample.initial :: (devices device).sample.writes).Pairwise (· < ·)
    rw [hnew]
    exact List.pairwise_singleton _ _
  · intro publisher publication hpublication
    cases hpublication
  · intro device sample hsample
    cases hsample
  · intro device
    left
    change (devices device).sample.writes.getLastD (devices device).sample.initial = _
    rw [hnew]
    rfl
  · intro device
    exact Nat.succ_pos _
  · intro position hposition
    cases hposition

/-- A read step tells at most one position, which it has computed from the anchors it found. -/
theorem read_reads (hpublished : world.Published initial) (hforward : world.Forward)
    (h : world.step (.read now index) = some next) :
    next.positions = world.positions ∨
      ∃ position, next.positions = world.positions ++ [position] ∧ world.Reads now position := by
  obtain ⟨ticked, htick, hread⟩ := Option.bind_eq_some_iff.1 h
  obtain ⟨⟨mid, result⟩, hposition, hnext⟩ := Option.map_eq_some_iff.1 hread
  obtain ⟨hpublished', hforward', hinstant⟩ := tick_spec hpublished hforward htick
  obtain ⟨hlooks, hok⟩ := positionAt_spec hpublished' hforward'.viewed hinstant hposition
  unfold tick at htick
  split at htick
  · cases htick
  · cases htick
    cases result with
    | error error =>
        cases hnext
        exact .inl hlooks.positions_eq
    | ok position =>
        cases hnext
        refine .inr ⟨position, ?_, (hok position rfl).1⟩
        change mid.positions ++ [position] = _
        rw [hlooks.positions_eq]

/-! ## The contract -/

omit [DecidableEq δ] [DecidableEq π] in
theorem Forward.pairwise_le (h : world.Forward) : world.positions.Pairwise (· ≤ ·) := by
  refine h.sorted.imp ?_
  rintro earlier later ⟨htb, hvalue⟩
  rw [RationalTime.le_iff_seconds]
  exact (RationalTime.value_le_iff_seconds htb).1 hvalue

/-- In every run of reads, switches and publications from new devices and a new clock:

* the positions told, by reads and by switches, go up, and so a switch tells a position that is not
  before any told earlier;
* as long as the source is not switched the anchors stay, and each read rounds the exact position
  once (and is exact on an audio device);
* a device shows the greatest of what it started from and of what was accepted. -/
theorem clock_never_runs_backwards {devices : δ → AudioMasterClock} {clock : PlaybackClock δ}
    {instant : Nat} {actions : List (Action δ π)} {last : World δ π}
    (hnew : ∀ device, (devices device).sample.writes = [])
    (hrun : Machine.run step (World.start devices clock instant) actions = some last) :
    last.positions.Pairwise (· ≤ ·) ∧
      (∀ action next position, last.step action = some next →
        next.positions = last.positions ++ [position] →
        ∀ earlier ∈ last.positions, earlier ≤ position) ∧
      (∀ between mid, (∀ action ∈ between, Action.KeepsMode action) →
        Machine.run step last between = some mid →
        mid.clock = last.clock ∧ ∀ now index next, mid.step (.read now index) = some next →
          next.positions = mid.positions ∨
          ∃ position, next.positions = mid.positions ++ [position] ∧ mid.Reads now position) ∧
      ∀ device, IsGreatest {sample | sample = (devices device).sample.initial ∨
        (device, sample) ∈ last.accepted} (last.devices device).sample.latest := by
  obtain ⟨hpublished, hforward⟩ := start_spec (π := π) clock instant hnew
  obtain ⟨hpublished, hforward⟩ := run_spec hpublished hforward hrun
  refine ⟨hforward.pairwise_le, ?_, ?_, ?_⟩
  · intro action next position hstep hpositions
    have hsorted := (step_spec hpublished hforward hstep).2.pairwise_le
    rw [hpositions, List.pairwise_append] at hsorted
    exact fun earlier hearlier => hsorted.2.2 earlier hearlier position (List.mem_singleton_self _)
  · intro between mid hkeeps hbetween
    obtain ⟨hmid, hmidForward⟩ := run_spec hpublished hforward hbetween
    exact ⟨run_clock hkeeps hbetween, fun now index next hread =>
      read_reads hmid hmidForward hread⟩
  · intro device
    constructor
    · rcases hpublished.latest_accepted device with hinitial | haccepted
      · exact .inl hinitial
      · exact .inr haccepted
    · rintro sample (rfl | haccepted)
      · rw [← hpublished.initial_eq device]
        exact (hpublished.increasing device).le_latest List.mem_cons_self
      · exact hpublished.accepted_le device sample haccepted

/-- A device of 48 kHz that has not presented anything. -/
def silentDevice : AudioMasterClock where
  sampleRate := 48000
  sample := ⟨⟨0, inI64_zero⟩, []⟩
  rate_pos := Timebase.pos_48000
  rate_fits := Timebase.fits_48000

/-- A read of the process clock, a switch to a device and a read after it has published. -/
def handover : List (Action Unit Unit) :=
  [.read 10000 0, .switchToAudioMaster () 20000 0 0, .publishSample () () ⟨480, by decide⟩ 0,
    .tryPublish () .works, .read 20000 1]

theorem clock_never_runs_backwards_handover : ∃ last : World Unit Unit,
    Machine.run step (World.start (fun _ => silentDevice)
      ⟨.zero silentDevice.timebase, .playback 0⟩ 0) handover = some last ∧
    last.positions.map (·.value) = [0, 1, 481] ∧ last.positions.Pairwise (· ≤ ·) := by
  have htold : (Machine.run step (World.start (fun _ => silentDevice)
      ⟨.zero silentDevice.timebase, .playback 0⟩ 0) handover).map
        (fun last : World Unit Unit => last.positions.map (·.value)) = some [0, 1, 481] := rfl
  obtain ⟨last, hlast, hvalues⟩ := Option.map_eq_some_iff.1 htold
  exact ⟨last, hlast, hvalues, (clock_never_runs_backwards (fun _ => rfl) hlast).1⟩

end World

end Concurrency
end Superi

import Mathlib
import Superi.Concurrency.AvSync

/-!
# AvSyncLaws — late video never starves

Every decision is described by the band its drift lies in.  The counter of consecutive drops is what
bounds the drops between two presentations, since nothing but a presentation, a rebase or a reset
lowers it.
-/

namespace Superi
namespace Concurrency

open Core Result

/-! ## Steps that are not checked -/

theorem asU64_eq {value : Nat} (h : value < 18446744073709551616) : asU64 value = pure value :=
  if_pos (by omega)

theorem asI64_eq {value : Int} (h : InI64 value) : asI64 value = pure value := if_pos h

theorem subU64_eq {left right : Nat} (hle : right ≤ left) (hleft : left < 18446744073709551616) :
    subU64 left right = pure (left - right) := by
  have hcast : (left : Int) - right = ((left - right : Nat) : Int) := by omega
  rw [subU64, hcast]
  exact asU64_eq (by omega)

/-! ## Policies -/

namespace AvSyncPolicy

/-- What validation establishes. -/
structure Valid (policy : AvSyncPolicy) : Prop where
  tolerance_pos : 0 < policy.presentationTolerance
  tolerance_lt : policy.presentationTolerance < policy.dropLateness
  drop_lt : policy.dropLateness < policy.discontinuityThreshold
  fits : (policy.discontinuityThreshold : Int) ≤ i64Max
  correction_pos : 0 < policy.maximumCorrection
  correction_le : policy.maximumCorrection ≤ policy.dropLateness
  drops_pos : 0 < policy.maxConsecutiveDrops.toNat

theorem durationNanoseconds_eq_ok {duration nanos : Nat} :
    durationNanoseconds duration = .ok nanos ↔ (duration : Int) ≤ i64Max ∧ nanos = duration := by
  simp only [durationNanoseconds, bind_eq_ok, rejectIf_eq_ok, pure_eq_ok]
  unfold i64Max
  constructor
  · rintro ⟨_, -, _, hfits, rfl⟩
    exact ⟨by omega, rfl⟩
  · rintro ⟨hfits, rfl⟩
    exact ⟨(), by omega, (), by omega, rfl⟩

theorem validate_eq_ok {policy : AvSyncPolicy} : policy.validate = .ok () ↔ policy.Valid := by
  have hdrops : policy.maxConsecutiveDrops = 0 ↔ policy.maxConsecutiveDrops.toNat = 0 :=
    ⟨fun h => by rw [h]; rfl, fun h => UInt32.toNat_inj.1 h⟩
  simp only [validate, bind_eq_ok, rejectIf_eq_ok, durationNanoseconds_eq_ok]
  constructor
  · rintro ⟨_, ⟨-, rfl⟩, _, ⟨-, rfl⟩, _, ⟨hfits, rfl⟩, _, ⟨-, rfl⟩, _, htolerance, _, hdrop, _,
      hdiscontinuity, _, hcorrection, hcount⟩
    rw [hdrops] at hcount
    exact ⟨by omega, by omega, by omega, hfits, by omega, by omega, by omega⟩
  · rintro ⟨htolerance, hdrop, hdiscontinuity, hfits, hcorrection, hle, hcount⟩
    refine ⟨_, ⟨by omega, rfl⟩, _, ⟨by omega, rfl⟩, _, ⟨hfits, rfl⟩, _, ⟨by omega, rfl⟩, (), by omega,
      (), by omega, (), by omega, (), by omega, ?_⟩
    rw [hdrops]
    omega

/-- The drift is inside the tolerance. -/
def InWindow (policy : AvSyncPolicy) (drift : Int) : Prop :=
  -(policy.presentationTolerance : Int) ≤ drift ∧ drift ≤ policy.presentationTolerance

end AvSyncPolicy

/-! ## Actions -/

/-- By how much a presentation is shortened. -/
def AvFrameCorrection.amount : AvFrameCorrection → Nat
  | .none => 0
  | .shortenBy duration => duration

/-- How late a frame is. -/
def AvDriftMeasurement.lateness (drift : AvDriftMeasurement) : Nat :=
  (-drift.nanoseconds.1).toNat

namespace AvSyncScheduler

variable {scheduler : AvSyncScheduler} {observation : AvFrameObservation}
  {frameDurationNs magnitudeNs dropNs : Nat} {drift : AvDriftMeasurement}
  {action : AvFrameAction} {reason : AvPresentationReason}

/-- The action of each band of drift. -/
inductive Chosen (scheduler : AvSyncScheduler) (observation : AvFrameObservation)
    (frameDurationNs : Nat) (drift : AvDriftMeasurement) : AvFrameAction → Prop
  | rebase (hfar : scheduler.policy.discontinuityThreshold ≤ drift.nanoseconds.1.natAbs) :
      Chosen scheduler observation frameDurationNs drift (.rebase observation.videoPresentationTime)
  | wait (duration : Nat)
      (hnear : drift.nanoseconds.1.natAbs < scheduler.policy.discontinuityThreshold)
      (hpos : 0 < duration)
      (hduration : drift.nanoseconds.1 = scheduler.policy.presentationTolerance + duration) :
      Chosen scheduler observation frameDurationNs drift (.wait duration)
  | inTolerance (hwindow : scheduler.policy.InWindow drift.nanoseconds.1) :
      Chosen scheduler observation frameDurationNs drift (.present frameDurationNs .none .inTolerance)
  | late (displayFor : Nat) (correction : AvFrameCorrection) (reason : AvPresentationReason)
      (hnear : drift.nanoseconds.1.natAbs < scheduler.policy.discontinuityThreshold)
      (hlate : scheduler.policy.presentationTolerance < drift.lateness)
      (hreason : reason ≠ .inTolerance)
      (hsum : displayFor + correction.amount = frameDurationNs)
      (hmaximum : correction.amount ≤ scheduler.policy.maximumCorrection)
      (hlateness : correction.amount ≤ drift.lateness - scheduler.policy.presentationTolerance) :
      Chosen scheduler observation frameDurationNs drift (.present displayFor correction reason)
  | dropLate (hnear : drift.nanoseconds.1.natAbs < scheduler.policy.discontinuityThreshold)
      (hlate : scheduler.policy.dropLateness ≤ drift.lateness)
      (heligible : observation.dropEligible = true) (hready : observation.followingFrameReady = true)
      (hstreak : scheduler.statistics.consecutiveDrops <
        scheduler.policy.maxConsecutiveDrops.toNat) :
      Chosen scheduler observation frameDurationNs drift .dropLate

theorem lateReason_eq_none (h : scheduler.lateReason observation magnitudeNs dropNs = none) :
    dropNs ≤ magnitudeNs ∧ observation.dropEligible = true ∧
      observation.followingFrameReady = true ∧
      scheduler.statistics.consecutiveDrops < scheduler.policy.maxConsecutiveDrops.toNat := by
  unfold lateReason at h
  split_ifs at h with hlate heligible hready hstreak
  exact ⟨by omega, by simpa using heligible, by simpa using hready, by omega⟩

theorem lateReason_ne_inTolerance (h : scheduler.lateReason observation magnitudeNs dropNs =
    some reason) : reason ≠ .inTolerance := by
  unfold lateReason at h
  split_ifs at h <;> cases h <;> decide

/-- A late frame is shown for as much shorter as the policy allows. -/
theorem correctedPresentation_eq (hvalid : scheduler.policy.Valid)
    (hframe : frameDurationNs < 18446744073709551616) (latenessNs toleranceNs : Nat)
    (reason : AvPresentationReason) :
    ∃ displayFor correction,
      scheduler.correctedPresentation frameDurationNs latenessNs toleranceNs reason =
        pure (.present displayFor correction reason) ∧
      displayFor + correction.amount = frameDurationNs ∧
      correction.amount ≤ scheduler.policy.maximumCorrection ∧
      correction.amount ≤ latenessNs - toleranceNs := by
  have hfits := hvalid.fits
  have hle := hvalid.correction_le
  have hlt := hvalid.drop_lt
  unfold i64Max at hfits
  obtain ⟨correctionNs, hcorrection⟩ : ∃ correctionNs, correctionNs =
      min (min (latenessNs - toleranceNs) scheduler.policy.maximumCorrection) frameDurationNs :=
    ⟨_, rfl⟩
  have hamount : (if correctionNs = 0 then AvFrameCorrection.none
      else .shortenBy correctionNs).amount = correctionNs := by
    by_cases hzero : correctionNs = 0
    · rw [if_pos hzero, hzero]
      rfl
    · rw [if_neg hzero]
      rfl
  refine ⟨frameDurationNs - correctionNs,
    if correctionNs = 0 then .none else .shortenBy correctionNs, ?_, ?_, ?_, ?_⟩
  · have hsub : subU64 frameDurationNs correctionNs = pure (frameDurationNs - correctionNs) :=
      subU64_eq (by omega) hframe
    simp only [correctedPresentation, asU64_eq (show scheduler.policy.maximumCorrection <
      18446744073709551616 by omega), pure_bind, ← hcorrection, hsub]
  · rw [hamount]
    omega
  · rw [hamount]
    omega
  · rw [hamount]
    omega

/-- Nothing wraps on the way to an action, whatever the drift. -/
theorem chooseAction_eq (hvalid : scheduler.policy.Valid)
    (hframe : frameDurationNs < 18446744073709551616) (observation : AvFrameObservation)
    (drift : AvDriftMeasurement) :
    ∃ action, scheduler.chooseAction observation frameDurationNs drift = pure action ∧
      Chosen scheduler observation frameDurationNs drift action := by
  have hfits := hvalid.fits
  have hpos := hvalid.tolerance_pos
  have htolerance := hvalid.tolerance_lt
  have hdrop := hvalid.drop_lt
  have hrange := drift.nanoseconds.2
  unfold InI64 i64Min at hrange
  unfold i64Max at hfits hrange
  have hupper : asI64 scheduler.policy.presentationTolerance =
      pure (scheduler.policy.presentationTolerance : Int) :=
    asI64_eq ⟨by unfold i64Min; omega, by unfold i64Max; omega⟩
  have hlower : asI64 (-(scheduler.policy.presentationTolerance : Int)) =
      pure (-(scheduler.policy.presentationTolerance : Int)) :=
    asI64_eq ⟨by unfold i64Min; omega, by unfold i64Max; omega⟩
  simp only [chooseAction]
  rw [asU64_eq (by omega), pure_bind, asU64_eq (by omega), pure_bind, asU64_eq (by omega), pure_bind]
  by_cases hfar : scheduler.policy.discontinuityThreshold ≤ drift.nanoseconds.1.natAbs
  · rw [if_pos hfar]
    exact ⟨_, rfl, .rebase hfar⟩
  rw [if_neg hfar, hupper, pure_bind]
  by_cases hahead : (scheduler.policy.presentationTolerance : Int) < drift.nanoseconds.1
  · obtain ⟨ahead, hcast⟩ : ∃ ahead : Nat, drift.nanoseconds.1 = ahead :=
      ⟨drift.nanoseconds.1.toNat, by omega⟩
    rw [if_pos hahead, hcast, asU64_eq (by omega), pure_bind, subU64_eq (by omega) (by omega),
      pure_bind]
    exact ⟨_, rfl, .wait _ (by omega) (by omega) (by omega)⟩
  rw [if_neg hahead, hlower, pure_bind]
  by_cases hwindow : -(scheduler.policy.presentationTolerance : Int) ≤ drift.nanoseconds.1
  · rw [if_pos hwindow]
    exact ⟨_, rfl, .inTolerance ⟨hwindow, by omega⟩⟩
  rw [if_neg hwindow]
  have hlateness : drift.nanoseconds.1.natAbs = drift.lateness := by
    unfold AvDriftMeasurement.lateness
    omega
  cases hreason : scheduler.lateReason observation drift.nanoseconds.1.natAbs
      scheduler.policy.dropLateness with
  | none =>
      obtain ⟨hlate, heligible, hready, hstreak⟩ := lateReason_eq_none hreason
      exact ⟨_, rfl, .dropLate (by omega) (hlateness ▸ hlate) heligible hready hstreak⟩
  | some reason =>
      obtain ⟨displayFor, correction, heq, hsum, hmaximum, hamount⟩ :=
        correctedPresentation_eq hvalid hframe drift.nanoseconds.1.natAbs
          scheduler.policy.presentationTolerance reason
      exact ⟨_, heq, .late displayFor correction reason (by omega) (by omega)
        (lateReason_ne_inTolerance hreason) hsum hmaximum (hlateness ▸ hamount)⟩

/-! ## Decisions -/

/-- What a decision tells its caller. -/
structure Meets (policy : AvSyncPolicy) (observation : AvFrameObservation)
    (decision : AvScheduleDecision) : Prop where
  drift : measureAvDrift observation.videoPresentationTime observation.masterTime =
    .ok decision.drift
  dropped : decision.action = .dropLate →
    observation.dropEligible = true ∧ observation.followingFrameReady = true
  presented : ∀ displayFor correction reason,
    decision.action = .present displayFor correction reason →
      ∃ frame, observation.frameDuration.checkedRescale nanoseconds .nearestTiesEven = .ok frame ∧
        displayFor + correction.amount = frame.value ∧
        correction.amount ≤ policy.maximumCorrection ∧
        correction.amount ≤ decision.drift.lateness - policy.presentationTolerance
  waits_iff : (∃ duration, decision.action = .wait duration) ↔
    (policy.presentationTolerance : Int) < decision.drift.nanoseconds.1 ∧
      decision.drift.nanoseconds.1 < policy.discontinuityThreshold
  waits_until : ∀ duration, decision.action = .wait duration →
    IsLeast {elapsed : Nat | policy.InWindow (decision.drift.nanoseconds.1 - elapsed)} duration
  rebases_iff : (∃ target, decision.action = .rebase target) ↔
    policy.discontinuityThreshold ≤ decision.drift.nanoseconds.1.natAbs
  rebases_to : ∀ target, decision.action = .rebase target →
    target = observation.videoPresentationTime

variable {frame : Duration}

/-- The bands exclude one another. -/
theorem Chosen.meets (hvalid : scheduler.policy.Valid)
    (hdrift : measureAvDrift observation.videoPresentationTime observation.masterTime = .ok drift)
    (hframe : observation.frameDuration.checkedRescale nanoseconds .nearestTiesEven = .ok frame)
    (h : Chosen scheduler observation frame.value drift action) :
    Meets scheduler.policy observation ⟨drift, action⟩ := by
  have htolerance := hvalid.tolerance_lt
  have hdrop := hvalid.drop_lt
  cases h with
  | rebase hfar =>
      refine ⟨hdrift, ?_, ?_, ⟨?_, ?_⟩, ?_, ⟨fun _ => hfar, fun _ => ⟨_, rfl⟩⟩, ?_⟩
      · exact fun h => by cases h
      · exact fun _ _ _ h => by cases h
      · rintro ⟨_, h⟩
        cases h
      · rintro ⟨hahead, hnear⟩
        dsimp only at hahead hnear
        omega
      · exact fun _ h => by cases h
      · intro target h
        cases h
        rfl
  | wait duration hnear hpos hduration =>
      refine ⟨hdrift, ?_, ?_, ⟨?_, fun _ => ⟨_, rfl⟩⟩, ?_, ⟨?_, ?_⟩, ?_⟩
      · exact fun h => by cases h
      · exact fun _ _ _ h => by cases h
      · intro _
        dsimp only
        omega
      · intro duration' h
        cases h
        refine ⟨?_, fun elapsed hwindow => ?_⟩
        · constructor <;> dsimp only <;> omega
        · have hupper := hwindow.2
          dsimp only at hupper
          omega
      · rintro ⟨_, h⟩
        cases h
      · intro hfar
        dsimp only at hfar
        omega
      · exact fun _ h => by cases h
  | inTolerance hwindow =>
      obtain ⟨hlower, hupper⟩ := hwindow
      refine ⟨hdrift, ?_, ?_, ⟨?_, ?_⟩, ?_, ⟨?_, ?_⟩, ?_⟩
      · exact fun h => by cases h
      · intro displayFor correction reason h
        cases h
        exact ⟨frame, hframe, rfl, Nat.zero_le _, Nat.zero_le _⟩
      · rintro ⟨_, h⟩
        cases h
      · rintro ⟨hahead, -⟩
        exact absurd hahead (not_lt.2 hupper)
      · exact fun _ h => by cases h
      · rintro ⟨_, h⟩
        cases h
      · intro hfar
        dsimp only at hfar
        omega
      · exact fun _ h => by cases h
  | late displayFor correction reason hnear hlate hreason hsum hmaximum hlateness =>
      unfold AvDriftMeasurement.lateness at hlate
      refine ⟨hdrift, ?_, ?_, ⟨?_, ?_⟩, ?_, ⟨?_, ?_⟩, ?_⟩
      · exact fun h => by cases h
      · intro displayFor correction reason h
        cases h
        exact ⟨frame, hframe, hsum, hmaximum, hlateness⟩
      · rintro ⟨_, h⟩
        cases h
      · rintro ⟨hahead, -⟩
        dsimp only at hahead
        omega
      · exact fun _ h => by cases h
      · rintro ⟨_, h⟩
        cases h
      · exact fun hfar => absurd hfar (not_le.2 hnear)
      · exact fun _ h => by cases h
  | dropLate hnear hlate heligible hready hstreak =>
      unfold AvDriftMeasurement.lateness at hlate
      refine ⟨hdrift, fun _ => ⟨heligible, hready⟩, ?_, ⟨?_, ?_⟩, ?_, ⟨?_, ?_⟩, ?_⟩
      · exact fun _ _ _ h => by cases h
      · rintro ⟨_, h⟩
        cases h
      · rintro ⟨hahead, -⟩
        dsimp only at hahead
        omega
      · exact fun _ h => by cases h
      · rintro ⟨_, h⟩
        cases h
      · exact fun hfar => absurd hfar (not_le.2 hnear)
      · exact fun _ h => by cases h

theorem frameNanoseconds_eq_ok (h : frameNanoseconds observation = .ok frameDurationNs) :
    ∃ frame, observation.frameDuration.checkedRescale nanoseconds .nearestTiesEven = .ok frame ∧
      frame.value = frameDurationNs := by
  simp only [frameNanoseconds, bind_eq_ok, withErrorContext_eq_ok, pure_eq_ok] at h
  obtain ⟨frame, hframe, -, -, hvalue⟩ := h
  exact ⟨frame, hframe, hvalue⟩

/-- A decision that is made is recorded, and none is lost to a wrapped step. -/
theorem schedule_spec (hvalid : scheduler.policy.Valid) (observation : AvFrameObservation) :
    (∃ error, (scheduler.schedule observation).run = some (.error error)) ∨
      ∃ frame drift action,
        observation.frameDuration.checkedRescale nanoseconds .nearestTiesEven = .ok frame ∧
        measureAvDrift observation.videoPresentationTime observation.masterTime = .ok drift ∧
        Chosen scheduler observation frame.value drift action ∧
        (scheduler.schedule observation).run = some (.ok (⟨drift, action⟩,
          { scheduler with statistics := scheduler.statistics.record ⟨drift, action⟩ })) := by
  unfold schedule
  cases hnanos : frameNanoseconds observation with
  | error error => exact .inl ⟨error, rfl⟩
  | ok frameDurationNs =>
      rw [Machine.lift_ok, pure_bind]
      obtain ⟨frame, hframe, rfl⟩ := frameNanoseconds_eq_ok hnanos
      cases hdrift : measureAvDrift observation.videoPresentationTime observation.masterTime with
      | error error => exact .inl ⟨error, rfl⟩
      | ok drift =>
          have hfits := frame.fits
          unfold i64Max at hfits
          have hlt : frame.value < 18446744073709551616 := by omega
          obtain ⟨action, heq, hchosen⟩ := chooseAction_eq hvalid hlt observation drift
          rw [Machine.lift_ok, pure_bind, heq, pure_bind]
          exact .inr ⟨frame, drift, action, hframe, rfl, hchosen, rfl⟩

/-! ## Streaks -/

/-- A frame was dropped. -/
def Entry.drops : Entry → Bool
  | .decided _ decision => decision.action = .dropLate
  | _ => false

/-- A presentation, a rebase or a reset. -/
def Entry.Restarts : Entry → Prop
  | .decided _ decision => (∃ displayFor correction reason,
      decision.action = .present displayFor correction reason) ∨
        ∃ target, decision.action = .rebase target
  | .refused _ _ => False
  | .reset => True

/-- What an entry tells. -/
def Entry.Meets (policy : AvSyncPolicy) : Entry → Prop
  | .decided observation decision => AvSyncScheduler.Meets policy observation decision
  | _ => True

/-- The drop counter is within its bound. -/
def Within (scheduler : AvSyncScheduler) : Prop :=
  scheduler.statistics.consecutiveDrops ≤ scheduler.policy.maxConsecutiveDrops.toNat

/-- The counter counts a drop and is kept by a wait. -/
theorem Chosen.streak (hwithin : scheduler.Within)
    (h : Chosen scheduler observation frameDurationNs drift action) :
    (scheduler.statistics.record ⟨drift, action⟩).consecutiveDrops ≤
        scheduler.policy.maxConsecutiveDrops.toNat ∧
      (¬ (Entry.decided observation ⟨drift, action⟩).Restarts →
        (scheduler.statistics.record ⟨drift, action⟩).consecutiveDrops =
          scheduler.statistics.consecutiveDrops +
            [Entry.decided observation ⟨drift, action⟩].countP Entry.drops) := by
  cases h with
  | rebase => exact ⟨Nat.zero_le _, fun h => absurd (.inr ⟨_, rfl⟩) h⟩
  | wait => exact ⟨hwithin, fun _ => rfl⟩
  | inTolerance => exact ⟨Nat.zero_le _, fun h => absurd (.inl ⟨_, _, _, rfl⟩) h⟩
  | late => exact ⟨Nat.zero_le _, fun h => absurd (.inl ⟨_, _, _, rfl⟩) h⟩
  | dropLate hnear hlate heligible hready hstreak =>
      have hbound := scheduler.policy.maxConsecutiveDrops.toNat_lt
      have hcount : (scheduler.statistics.record ⟨drift, .dropLate⟩).consecutiveDrops =
          scheduler.statistics.consecutiveDrops + 1 := by
        change min (scheduler.statistics.consecutiveDrops + 1) 4294967295 = _
        omega
      exact ⟨by omega, fun _ => hcount⟩

/-- One call. -/
theorem call_spec (hvalid : scheduler.policy.Valid) (hwithin : scheduler.Within) (made : Call) :
    ∃ entry next, scheduler.call made = some (entry, next) ∧
      next.policy = scheduler.policy ∧ next.Within ∧ entry.Meets scheduler.policy ∧
      (¬ entry.Restarts → next.statistics.consecutiveDrops =
        scheduler.statistics.consecutiveDrops + [entry].countP Entry.drops) := by
  cases made with
  | reset =>
      exact ⟨.reset, scheduler.reset, rfl, rfl, Nat.zero_le _, trivial, fun h => absurd trivial h⟩
  | schedule observation =>
      rcases schedule_spec hvalid observation with ⟨error, herror⟩ |
        ⟨frame, drift, action, hframe, hdrift, hchosen, hrun⟩
      · refine ⟨.refused observation error, scheduler, ?_, rfl, hwithin, trivial, fun _ => rfl⟩
        rw [call, herror]
        rfl
      · obtain ⟨hbound, hstreak⟩ := hchosen.streak hwithin
        refine ⟨.decided observation ⟨drift, action⟩,
          { scheduler with statistics := scheduler.statistics.record ⟨drift, action⟩ }, ?_, rfl, hbound,
          hchosen.meets hvalid hdrift hframe, hstreak⟩
        rw [call, hrun]
        rfl

/-- The drops of a run up to its first restart, and between two restarts. -/
theorem run_spec (hvalid : scheduler.policy.Valid) (hwithin : scheduler.Within) (calls : List Call) :
    ∃ entries last, scheduler.run calls = some (entries, last) ∧
      (∀ entry ∈ entries, entry.Meets scheduler.policy) ∧
      (∀ middle after, entries = middle ++ after → (∀ entry ∈ middle, ¬ entry.Restarts) →
        scheduler.statistics.consecutiveDrops + middle.countP Entry.drops ≤
          scheduler.policy.maxConsecutiveDrops.toNat) ∧
      (∀ before middle after, entries = before ++ (middle ++ after) →
        (∀ entry ∈ middle, ¬ entry.Restarts) →
        middle.countP Entry.drops ≤ scheduler.policy.maxConsecutiveDrops.toNat) := by
  induction calls generalizing scheduler with
  | nil =>
      refine ⟨[], scheduler, rfl, by simp, fun middle after heq _ => ?_,
        fun before middle after heq _ => ?_⟩
      · rw [(List.append_eq_nil_iff.1 heq.symm).1]
        exact hwithin
      · rw [(List.append_eq_nil_iff.1 (List.append_eq_nil_iff.1 heq.symm).2).1]
        exact Nat.zero_le _
  | cons made calls ih =>
      obtain ⟨entry, next, hcall, hpolicy, hnext, hmeets, hstreak⟩ :=
        call_spec hvalid hwithin made
      obtain ⟨entries, last, hrun, hall, hfront, hbetween⟩ := ih (hpolicy ▸ hvalid) hnext
      rw [hpolicy] at hall hfront hbetween
      have hfront : ∀ middle after, entry :: entries = middle ++ after →
          (∀ entry ∈ middle, ¬ entry.Restarts) →
          scheduler.statistics.consecutiveDrops + middle.countP Entry.drops ≤
            scheduler.policy.maxConsecutiveDrops.toNat := by
        intro middle after heq hquiet
        cases middle with
        | nil => exact hwithin
        | cons first middle =>
            obtain ⟨rfl, rfl⟩ := List.cons.inj heq
            have hcount := hstreak (hquiet _ List.mem_cons_self)
            have hrest := hfront middle after rfl fun entry h => hquiet entry (List.mem_cons_of_mem _ h)
            rw [← List.singleton_append, List.countP_append]
            omega
      refine ⟨entry :: entries, last, ?_, ?_, hfront, ?_⟩
      · simp only [run, hcall, hrun, Option.bind_eq_bind, Option.bind_some]
        rfl
      · exact List.forall_mem_cons.2 ⟨hmeets, hall⟩
      · intro before middle after heq hquiet
        cases before with
        | nil => exact le_trans (Nat.le_add_left _ _) (hfront middle after heq hquiet)
        | cons first before => exact hbetween before middle after (List.cons.inj heq).2 hquiet

/-! ## The contract -/

/-- For every valid policy and all calls since the scheduler was created: no step wraps, every
decision keeps to the policy, and between two presentations, rebases or resets at most
`max_consecutive_drops` frames are dropped. -/
theorem late_video_never_starves {policy : AvSyncPolicy} {start : AvSyncScheduler}
    (hnew : new policy = .ok start) (calls : List Call) :
    ∃ entries last, start.run calls = some (entries, last) ∧
      (∀ observation decision, Entry.decided observation decision ∈ entries →
        Meets policy observation decision) ∧
      ∀ before middle after, entries = before ++ (middle ++ after) →
        (∀ entry ∈ middle, ¬ entry.Restarts) →
        middle.countP Entry.drops ≤ policy.maxConsecutiveDrops.toNat := by
  obtain ⟨_, hvalidate, hstart⟩ := bind_eq_ok.1 hnew
  obtain rfl := pure_eq_ok.1 hstart
  have hvalid : (⟨policy, .default⟩ : AvSyncScheduler).policy.Valid :=
    AvSyncPolicy.validate_eq_ok.1 hvalidate
  obtain ⟨entries, last, hrun, hall, -, hbetween⟩ := run_spec hvalid (Nat.zero_le _) calls
  exact ⟨entries, last, hrun, fun observation decision hmem => hall _ hmem, hbetween⟩

/-- A frame 50 ms late that may be dropped. -/
def lateFrame : AvFrameObservation where
  videoPresentationTime := .zero nanoseconds
  masterTime := ⟨50000000, nanoseconds, by decide⟩
  frameDuration := ⟨10000000, nanoseconds, by decide⟩
  followingFrameReady := true
  dropEligible := true

theorem late_video_never_starves_default :
    ∃ entries last, (⟨.default, .default⟩ : AvSyncScheduler).run
        (List.replicate 6 (.schedule lateFrame)) = some (entries, last) ∧
      (∀ observation decision, Entry.decided observation decision ∈ entries →
        Meets .default observation decision) ∧
      ∀ before middle after, entries = before ++ (middle ++ after) →
        (∀ entry ∈ middle, ¬ entry.Restarts) →
        middle.countP Entry.drops ≤ AvSyncPolicy.default.maxConsecutiveDrops.toNat :=
  late_video_never_starves rfl _

end AvSyncScheduler

end Concurrency
end Superi

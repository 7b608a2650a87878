import Superi.Engine.LifecycleSound

/-!
# LifecycleCalls — what each call of the engine lifecycle does

A state between two calls is `Steady`: it is sound and its published snapshot is its own view.
Every call is refused with nothing changed, answers with the latest snapshot, or publishes a steady
state under the next revision.
-/

namespace Superi
namespace Engine

open Core Concurrency Stateful

variable {owned last : EngineOwnedState} {subsystem other : EngineSubsystem}
variable {action : EngineLifecycleAction} {error : Error}

/-! ## Publication -/

namespace EngineOwnedState

/-- A state between two calls. -/
structure Steady (owned : EngineOwnedState) : Prop where
  sound : Sound owned
  latest : owned.latest = owned.view
  generation : owned.generation = owned.stateRevision

/-- A call has published what it leaves. -/
structure Published (owned : EngineOwnedState) (snapshot : EngineLifecycleSnapshot)
    (last : EngineOwnedState) : Prop where
  steady : Steady last
  stateRevision : last.stateRevision = owned.stateRevision + 1
  snapshot : snapshot = last.latest

/-- The shape depends neither on what was published nor on what follows a stop. -/
theorem ModeSound.publishes (generation stateRevision : Nat) (latest : EngineLifecycleSnapshot)
    (restartAfterStop : Bool) : owned.ModeSound → ({ owned with
      generation, stateRevision, latest, restartAfterStop } : EngineOwnedState).ModeSound := by
  intro h
  cases h with
  | starting subsystem hmode hphase hpends howned hdependencies hothers =>
      exact .starting subsystem hmode hphase ⟨hpends.action, hpends.state⟩ howned hdependencies
        hothers
  | running hmode hphase hidle hall => exact .running hmode hphase hidle hall
  | recovering subsystem hmode hphase hpends howned hdependencies hothers =>
      exact .recovering subsystem hmode hphase ⟨hpends.action, hpends.state⟩ howned hdependencies
        hothers
  | preparingSleep subsystem hmode hphase hpends hmem hshared hkept =>
      exact .preparingSleep subsystem hmode hphase ⟨hpends.action, hpends.state⟩ hmem hshared hkept
  | sleeping hmode hphase hidle hkept => exact .sleeping hmode hphase hidle hkept
  | waking subsystem hmode hphase hpends hmem hshared hothers =>
      exact .waking subsystem hmode hphase ⟨hpends.action, hpends.state⟩ hmem hshared hothers
  | stopping subsystem hmode hpends hdown hunattempted hdependents =>
      exact .stopping subsystem hmode ⟨hpends.action, hpends.state⟩ hdown hunattempted hdependents
  | rollingBack subsystem hmode hphase hpends hdependents =>
      exact .rollingBack subsystem hmode hphase ⟨hpends.action, hpends.state⟩ hdependents
  | idle hmode hidle hphase => exact .idle hmode hidle hphase

end EngineOwnedState

open EngineOwnedState

theorem publish_sound (h : Sound owned) (hsame : owned.generation = owned.stateRevision)
    (hcounter : owned.stateRevision < maxCounter) :
    Succeeds publish owned (Published owned) := by
  refine .get (.passes (by omega) (.passes (by omega) (.put (.ret ⟨⟨?_, rfl, ?_⟩, rfl, rfl⟩))))
  · exact ⟨h.coordinated, h.shape.publishes _ _ _ _⟩
  · show owned.generation + 1 = owned.stateRevision + 1
    omega

/-- Every call ends with the publication of the sound state it reached. -/
theorem publish_spec {mid : EngineOwnedState} (h : Steady owned) (hroom : HasRoom owned)
    (hsound : Sound mid) (hunpublished : Unpublished owned mid) :
    Succeeds publish mid (Published owned) := by
  have hrevision := hunpublished.stateRevision
  have hgeneration := hunpublished.generation
  have hsame := h.generation
  have hcounter := hroom.stateRevision
  refine (publish_sound hsound (by omega) (by omega)).mono ?_
  rintro _ last ⟨hsteady, hnext, hsnapshot⟩
  exact ⟨hsteady, by omega, hsnapshot⟩

/-- A call whose last step before the publication leads to a sound state. -/
theorem publishes {mid : EngineOwnedState} {call : EngineM PUnit} (h : Steady owned)
    (hroom : HasRoom owned) (hmid : Unpublished owned mid)
    (hcall : Succeeds call mid fun _ last => Sound last ∧ Unpublished mid last) :
    Succeeds (call >>= fun _ => publish) mid (Published owned) := by
  refine hcall.bind ?_
  rintro _ last ⟨hsound, hunpublished⟩
  exact publish_spec h hroom hsound (hunpublished.after hmid)

theorem validateAction_spec (h : owned.currentAction = some action) :
    Succeeds (validateAction action) owned fun _ last => last = owned :=
  .get (.passes_last (not_not_intro h) rfl)

theorem validateAction_stale (h : owned.currentAction ≠ some action) :
    Rejects (validateAction action) owned :=
  .get (.fails_last h)

/-- The pending action is the one the shape speaks of. -/
theorem EngineOwnedState.Pends.of_action {kind : EngineLifecycleActionKind}
    {state : EngineSubsystemState} (h : owned.Pends kind state subsystem) :
    owned.currentAction = some action → action.kind = kind ∧ action.subsystem = subsystem := by
  intro hpending
  obtain ⟨pending, hcurrent, hkind, hsubsystem⟩ := h.action
  rw [hcurrent, Option.some.injEq] at hpending
  rw [← hpending]
  exact ⟨hkind, hsubsystem⟩

theorem kept_served : SubsystemRecord.served.Kept := ⟨rfl, .inl rfl⟩

theorem kept_of_failedState (error : Error) (failure : Option EngineFailureSnapshot) :
    isTerminal error = false → SubsystemRecord.Kept ⟨failedState error, true, failure⟩ := by
  intro hterminal
  refine ⟨rfl, .inr ?_⟩
  simp [failedState, hterminal]

/-! ## Completed actions -/

section Complete

theorem completeInitialize_spec (h : Coordinated owned.coordinator)
    (hmode : owned.mode = .starting) (hphase : owned.phase = .starting)
    (hidle : owned.currentAction = none)
    (hstate : (owned.records action.subsystem).state = .initializing)
    (hothers : ∀ other ≠ action.subsystem,
      owned.serves other = true ∨ (owned.records other).Waits) (hroom : HasRoom owned) :
    Succeeds (completeInitialize action) owned fun _ last =>
      Sound last ∧ Unpublished owned last := by
  refine .get (.passes ?_ (.put ?_))
  · simp [hmode, hstate]
  · have hrevision := hroom.revision
    refine Succeeds.mono (scheduleNextInitialization_spec ⟨h, hmode, hphase, hidle, ?_⟩ ?_
      hroom.actionRevision) ?_
    · intro other
      by_cases hother : other = action.subsystem
      · refine .inl ?_
        rw [serves_iff, records_setRecord, if_pos hother]
        exact ⟨rfl, rfl⟩
      · simp only [serves, records_setRecord, if_neg hother]
        exact hothers other hother
    · show owned.coordinator.state.revision + 1 ≤ maxRevision
      omega
    · rintro _ last ⟨hsound, hunpublished⟩
      exact ⟨hsound, hunpublished.after ⟨rfl, rfl, rfl⟩⟩

/-- A recovered subsystem is as good as any other of a running engine. -/
theorem completeRecover_spec (h : Coordinated owned.coordinator)
    (hmode : owned.mode = .recovering) (hphase : owned.phase = .running)
    (hidle : owned.currentAction = none)
    (hstate : (owned.records action.subsystem).state = .recovering)
    (hothers : ∀ other ≠ action.subsystem, (owned.records other).Kept) :
    Succeeds (completeRecover action) owned fun _ last => Sound last ∧ Unpublished owned last := by
  refine .get (.passes ?_ ⟨⟨⟩, _, rfl, ⟨h, .running rfl hphase hidle ?_⟩, ⟨rfl, rfl, rfl⟩⟩)
  · simp [hmode, hstate]
  · intro other
    show ((owned.setRecord action.subsystem .served).records other).Kept
    rw [records_setRecord]
    split
    · exact kept_served
    · exact hothers other ‹_›

theorem completePrepareSleep_spec (h : Coordinated owned.coordinator)
    (hmode : owned.mode = .preparingSleep) (hphase : owned.phase = .preparingSleep)
    (hidle : owned.currentAction = none)
    (hstate : (owned.records action.subsystem).state = .preparingSleep)
    (hmem : action.subsystem ∈ owned.sleepPending) (hshared : .sharedState ∉ owned.sleepPending)
    (hkept : (owned.records .sharedState).Kept) (hroom : HasRoom owned) :
    Succeeds (completePrepareSleep action) owned fun _ last =>
      Sound last ∧ Unpublished owned last := by
  have hne : EngineSubsystem.sharedState ≠ action.subsystem := fun heq => hshared (heq ▸ hmem)
  refine .get (.passes (not_not_intro ⟨hmode, hstate, hmem⟩) (.put ?_))
  have hrevision := hroom.revision
  refine Succeeds.mono (scheduleNextSleepPreparation_spec ⟨h, hmode, hphase, hidle, ?_, ?_⟩ ?_
    hroom.actionRevision) ?_
  · exact fun hshared' => hshared (Finset.mem_of_mem_erase hshared')
  · show ((owned.setRecord action.subsystem _).records .sharedState).Kept
    rw [records_setRecord, if_neg hne]
    exact hkept
  · show owned.coordinator.state.revision + 1 ≤ maxRevision
    omega
  · rintro _ last ⟨hsound, hunpublished⟩
    exact ⟨hsound, hunpublished.after ⟨rfl, rfl, rfl⟩⟩

/-- A woken subsystem, ready or degraded, does not hold up the others. -/
theorem woken_spec {record : SubsystemRecord} (h : Coordinated owned.coordinator)
    (hmode : owned.mode = .waking) (hphase : owned.phase = .waking)
    (hidle : owned.currentAction = none) (hshared : .sharedState ∉ owned.wakePending)
    (hrecord : record.Kept) (hothers : ∀ other ∉ owned.wakePending, (owned.records other).Kept)
    (hroom : HasRoom owned) :
    Succeeds scheduleNextWake { owned.setRecord subsystem record with
      wakePending := owned.wakePending.erase subsystem } fun _ last =>
        Sound last ∧ Unpublished owned last := by
  have hrevision := hroom.revision
  refine Succeeds.mono (scheduleNextWake_spec ⟨h, hmode, hphase, hidle, ?_, ?_⟩ ?_
    hroom.actionRevision) ?_
  · exact fun hshared' => hshared (Finset.mem_of_mem_erase hshared')
  · intro other hother
    show ((owned.setRecord subsystem record).records other).Kept
    rw [records_setRecord]
    split
    · exact hrecord
    · exact hothers other fun hmem => hother (Finset.mem_erase.2 ⟨‹_›, hmem⟩)
  · show owned.coordinator.state.revision + 1 ≤ maxRevision
    omega
  · rintro _ last ⟨hsound, hunpublished⟩
    exact ⟨hsound, hunpublished.after ⟨rfl, rfl, rfl⟩⟩

/-- What a teardown that released its subsystem leaves of the shape. -/
theorem tearsDown_released (hunattempted : subsystem ∉ owned.teardownAttempted) :
    owned.TearsDown → ({ owned.setRecord subsystem .offline with
      teardownAttempted := insert subsystem owned.teardownAttempted } :
        EngineOwnedState).TearsDown := by
  rintro (⟨hphase, hall⟩ | ⟨hphase, failed, hmem, hfailed⟩)
  · refine .inl ⟨hphase, fun other hother => ?_⟩
    show ((owned.setRecord subsystem .offline).records other).ownsResources = false
    rw [records_setRecord]
    split
    · rfl
    · exact hall other ((Finset.mem_insert.1 hother).resolve_left ‹_›)
  · have hne : failed ≠ subsystem := fun heq => hunattempted (heq ▸ hmem)
    refine .inr ⟨hphase, failed, Finset.mem_insert_of_mem hmem, ?_⟩
    show ((owned.setRecord subsystem .offline).records failed).ownsResources = true
    rw [records_setRecord, if_neg hne]
    exact hfailed

theorem completeTeardown_spec (h : Coordinated owned.coordinator)
    (hstate : (owned.records action.subsystem).state = .stopping)
    (hmode : owned.mode = .stopping ∧ owned.TearsDown ∧
        action.subsystem ∉ owned.teardownAttempted ∨
      owned.mode = .rollingBack ∧ owned.phase = .failed) (hroom : HasRoom owned) :
    Succeeds (completeTeardown action) owned fun _ last => Sound last ∧ Unpublished owned last := by
  have htears : tearsDown owned := hmode.imp And.left And.left
  refine .get (.passes (by simp [htears, hstate]) (.put ?_))
  have hrevision := hroom.revision
  refine Succeeds.mono (scheduleNextTeardown_spec ⟨h, ?_⟩ ?_ hroom.actionRevision
    hroom.lifetime) ?_
  · rcases hmode with ⟨hmode, hdown, hunattempted⟩ | ⟨hmode, hphase⟩
    · exact .inl ⟨hmode, tearsDown_released hunattempted hdown⟩
    · exact .inr ⟨hmode, hphase⟩
  · show owned.coordinator.state.revision + 3 ≤ maxRevision
    omega
  · rintro _ last ⟨hsound, hunpublished⟩
    exact ⟨hsound, hunpublished.after ⟨rfl, rfl, rfl⟩⟩

/-- The state a call works on once it has taken the pending action away. -/
theorem EngineOwnedState.HasRoom.taken (h : HasRoom owned)
    (lastFailure : Option EngineFailureSnapshot) :
    HasRoom { owned with lastFailure, currentAction := none } :=
  ⟨h.revision, h.stateRevision, h.actionRevision, h.lifetime⟩

theorem completeKind_spec (h : Sound owned) (hroom : HasRoom owned)
    (hpending : owned.currentAction = some action) :
    Succeeds (completeKind action) { owned with currentAction := none } fun _ last =>
      Sound last ∧ Unpublished { owned with currentAction := none } last := by
  have hcoordinated := h.coordinated
  have htaken := hroom.taken owned.lastFailure
  unfold completeKind
  cases h.shape with
  | starting subsystem hmode hphase hpends howned hdependencies hothers =>
      obtain ⟨hkind, rfl⟩ := hpends.of_action hpending
      rw [hkind]
      exact completeInitialize_spec hcoordinated hmode hphase rfl hpends.state hothers htaken
  | recovering subsystem hmode hphase hpends howned hdependencies hothers =>
      obtain ⟨hkind, rfl⟩ := hpends.of_action hpending
      rw [hkind]
      exact completeRecover_spec hcoordinated hmode hphase rfl hpends.state hothers
  | preparingSleep subsystem hmode hphase hpends hmem hshared hkept =>
      obtain ⟨hkind, rfl⟩ := hpends.of_action hpending
      rw [hkind]
      exact completePrepareSleep_spec hcoordinated hmode hphase rfl hpends.state hmem hshared hkept
        htaken
  | waking subsystem hmode hphase hpends hmem hshared hothers =>
      obtain ⟨hkind, rfl⟩ := hpends.of_action hpending
      rw [hkind]
      refine .get (.passes (not_not_intro ⟨hmode, hpends.state, hmem⟩) (.put ?_))
      exact woken_spec hcoordinated hmode hphase rfl hshared kept_served hothers htaken
  | stopping subsystem hmode hpends hdown hunattempted hdependents =>
      obtain ⟨hkind, rfl⟩ := hpends.of_action hpending
      rw [hkind]
      exact completeTeardown_spec hcoordinated hpends.state (.inl ⟨hmode, hdown, hunattempted⟩)
        htaken
  | rollingBack subsystem hmode hphase hpends hdependents =>
      obtain ⟨hkind, rfl⟩ := hpends.of_action hpending
      rw [hkind]
      exact completeTeardown_spec hcoordinated hpends.state (.inr ⟨hmode, hphase⟩) htaken
  | running hmode hphase hidle hall =>
      rw [hidle] at hpending
      cases hpending
  | sleeping hmode hphase hidle hkept =>
      rw [hidle] at hpending
      cases hpending
  | idle hmode hidle hphase =>
      rw [hidle] at hpending
      cases hpending

/-- Exactly the pending action completes. -/
theorem completeAction_spec (h : Steady owned) (hroom : HasRoom owned)
    (hpending : owned.currentAction = some action) :
    Succeeds (completeAction action) owned (Published owned) := by
  refine (validateAction_spec hpending).bind ?_
  rintro _ _ rfl
  refine .change ((completeKind_spec h.sound hroom hpending).bind ?_)
  rintro _ last ⟨hsound, hunpublished⟩
  exact publish_spec h hroom hsound (hunpublished.after ⟨rfl, rfl, rfl⟩)

theorem completeAction_stale (h : owned.currentAction ≠ some action) :
    Rejects (completeAction action) owned :=
  .bind (validateAction_stale h)

end Complete

/-! ## Failed actions -/

section Fail

/-- A failed engine rests. -/
theorem failEngine_spec (h : Coordinated owned.coordinator) (hphase : owned.phase ≠ .stopped)
    (hidle : owned.currentAction = none) (hroom : HasRoom owned) :
    Succeeds (failEngine error) owned fun _ last => Sound last ∧ Unpublished owned last := by
  have hrevision := hroom.revision
  refine (failCoordinator_spec h hphase error (by omega)).bind ?_
  rintro _ _ ⟨coordinator, hmoved, rfl⟩
  exact .change_last ⟨⟨hmoved.coordinated, .idle rfl hidle (.inl hmoved.phase)⟩, ⟨rfl, rfl, rfl⟩⟩

/-- After a failure the resources are released again. -/
theorem failInitialize_spec (h : Coordinated owned.coordinator)
    (hmode : owned.mode = .starting) (hphase : owned.phase = .starting) (hroom : HasRoom owned) :
    Succeeds (failInitialize action error) owned fun _ last =>
      Sound last ∧ Unpublished owned last := by
  have hrevision := hroom.revision
  refine .get (.passes (not_not_intro hmode) (.put (Succeeds.bind
    (failCoordinator_spec ?_ ?_ error ?_) ?_)))
  · exact h
  · show owned.phase ≠ .stopped
    rw [hphase]
    decide
  · show owned.coordinator.state.revision + 1 ≤ maxRevision
    omega
  · rintro _ _ ⟨coordinator, hmoved, rfl⟩
    have hrevision' : coordinator.state.revision = owned.coordinator.state.revision + 1 :=
      hmoved.revision
    refine .change (Succeeds.mono (scheduleNextTeardown_spec
      ⟨hmoved.coordinated, .inr ⟨rfl, hmoved.phase⟩⟩ ?_ hroom.actionRevision hroom.lifetime) ?_)
    · show coordinator.state.revision + 3 ≤ maxRevision
      omega
    · rintro _ last ⟨hsound, hunpublished⟩
      exact ⟨hsound, hunpublished.after ⟨rfl, rfl, rfl⟩⟩

theorem failRecover_spec (h : Coordinated owned.coordinator)
    (hmode : owned.mode = .recovering) (hphase : owned.phase = .running)
    (hidle : owned.currentAction = none)
    (howned : (owned.records action.subsystem).ownsResources = true)
    (hothers : ∀ other ≠ action.subsystem, (owned.records other).Kept) (hroom : HasRoom owned) :
    Succeeds (failRecover action error) owned fun _ last =>
      Sound last ∧ Unpublished owned last := by
  refine .get (.passes (not_not_intro hmode) (.put ?_))
  split
  · refine Succeeds.mono (failEngine_spec h ?_ hidle ⟨hroom.revision, hroom.stateRevision,
      hroom.actionRevision, hroom.lifetime⟩) ?_
    · show owned.phase ≠ .stopped
      rw [hphase]
      decide
    · rintro _ last ⟨hsound, hunpublished⟩
      exact ⟨hsound, hunpublished.after ⟨rfl, rfl, rfl⟩⟩
  · rename_i hterminal
    refine .change_last ⟨⟨h, .running rfl hphase hidle fun other => ?_⟩, ⟨rfl, rfl, rfl⟩⟩
    show ((owned.setRecord action.subsystem _).records other).Kept
    rw [records_setRecord]
    split
    · show SubsystemRecord.Kept ⟨failedState error, (owned.records action.subsystem).ownsResources, _⟩
      rw [howned]
      exact kept_of_failedState error _ (by simpa using hterminal)
    · exact hothers other ‹_›

theorem failPrepareSleep_spec (h : Coordinated owned.coordinator)
    (hmode : owned.mode = .preparingSleep) (hphase : owned.phase = .preparingSleep)
    (hidle : owned.currentAction = none)
    (hstate : (owned.records action.subsystem).state = .preparingSleep)
    (hmem : action.subsystem ∈ owned.sleepPending) (hshared : .sharedState ∉ owned.sleepPending)
    (hkept : (owned.records .sharedState).Kept) (hroom : HasRoom owned) :
    Succeeds (failPrepareSleep action error) owned fun _ last =>
      Sound last ∧ Unpublished owned last := by
  have hne : EngineSubsystem.sharedState ≠ action.subsystem := fun heq => hshared (heq ▸ hmem)
  refine .get (.passes (not_not_intro ⟨hmode, hstate, hmem⟩) (.put ?_))
  have hrevision := hroom.revision
  split
  · refine Succeeds.mono (failEngine_spec h ?_ hidle ⟨hroom.revision, hroom.stateRevision,
      hroom.actionRevision, hroom.lifetime⟩) ?_
    · show owned.phase ≠ .stopped
      rw [hphase]
      decide
    · rintro _ last ⟨hsound, hunpublished⟩
      exact ⟨hsound, hunpublished.after ⟨rfl, rfl, rfl⟩⟩
  · refine Succeeds.mono (scheduleNextSleepPreparation_spec ⟨h, hmode, hphase, hidle, ?_, ?_⟩ ?_
      hroom.actionRevision) ?_
    · exact fun hshared' => hshared (Finset.mem_of_mem_erase hshared')
    · show ((owned.setRecord action.subsystem _).records .sharedState).Kept
      rw [records_setRecord, if_neg hne]
      exact hkept
    · show owned.coordinator.state.revision + 1 ≤ maxRevision
      omega
    · rintro _ last ⟨hsound, hunpublished⟩
      exact ⟨hsound, hunpublished.after ⟨rfl, rfl, rfl⟩⟩

theorem failWake_spec (h : Coordinated owned.coordinator)
    (hmode : owned.mode = .waking) (hphase : owned.phase = .waking)
    (hidle : owned.currentAction = none)
    (hstate : (owned.records action.subsystem).state = .waking)
    (hmem : action.subsystem ∈ owned.wakePending) (hshared : .sharedState ∉ owned.wakePending)
    (hothers : ∀ other ∉ owned.wakePending, (owned.records other).Kept) (hroom : HasRoom owned) :
    Succeeds (failWake action error) owned fun _ last => Sound last ∧ Unpublished owned last := by
  refine .get (.passes (not_not_intro ⟨hmode, hstate, hmem⟩) (.put ?_))
  split
  · refine Succeeds.mono (failEngine_spec h ?_ hidle ⟨hroom.revision, hroom.stateRevision,
      hroom.actionRevision, hroom.lifetime⟩) ?_
    · show owned.phase ≠ .stopped
      rw [hphase]
      decide
    · rintro _ last ⟨hsound, hunpublished⟩
      exact ⟨hsound, hunpublished.after ⟨rfl, rfl, rfl⟩⟩
  · rename_i hterminal
    rw [Bool.not_eq_true] at hterminal
    exact woken_spec h hmode hphase hidle hshared (kept_of_failedState error _ hterminal) hothers
      hroom

/-- A failed teardown is remembered as attempted and still owned. -/
theorem failTeardown_spec (h : Coordinated owned.coordinator)
    (hmode : owned.mode = .stopping ∧ owned.TearsDown ∨
      owned.mode = .rollingBack ∧ owned.phase = .failed) (hroom : HasRoom owned) :
    Succeeds (failTeardown action error) owned fun _ last =>
      Sound last ∧ Unpublished owned last := by
  have htears : tearsDown owned := hmode.imp And.left And.left
  have hphase : owned.phase ≠ .stopped := by
    rcases hmode with ⟨-, ⟨hphase, -⟩ | ⟨hphase, -⟩⟩ | ⟨-, hphase⟩ <;> rw [hphase] <;> decide
  have hrevision := hroom.revision
  refine .get (.passes (not_not_intro htears) (.put
    (Succeeds.bind (failCoordinator_spec ?_ ?_ error ?_) ?_)))
  · exact h
  · exact hphase
  · show owned.coordinator.state.revision + 1 ≤ maxRevision
    omega
  · rintro _ _ ⟨coordinator, hmoved, rfl⟩
    have hrevision' : coordinator.state.revision = owned.coordinator.state.revision + 1 :=
      hmoved.revision
    refine Succeeds.mono (scheduleNextTeardown_spec ⟨hmoved.coordinated, ?_⟩ ?_
      hroom.actionRevision hroom.lifetime) ?_
    · rcases hmode with ⟨hmode, -⟩ | ⟨hmode, -⟩
      · refine .inl ⟨hmode, .inr ⟨hmoved.phase, action.subsystem,
          Finset.mem_insert_self _ _, ?_⟩⟩
        show ((owned.setRecord action.subsystem _).records action.subsystem).ownsResources = true
        rw [records_setRecord, if_pos rfl]
      · exact .inr ⟨hmode, hmoved.phase⟩
    · show coordinator.state.revision + 3 ≤ maxRevision
      omega
    · rintro _ last ⟨hsound, hunpublished⟩
      exact ⟨hsound, hunpublished.after ⟨rfl, rfl, rfl⟩⟩

theorem failKind_spec (h : Sound owned) (hroom : HasRoom owned)
    (lastFailure : Option EngineFailureSnapshot) (hpending : owned.currentAction = some action) :
    Succeeds (failKind action error) { owned with lastFailure, currentAction := none }
      fun _ last => Sound last ∧
        Unpublished { owned with lastFailure, currentAction := none } last := by
  have hcoordinated := h.coordinated
  have htaken := hroom.taken lastFailure
  unfold failKind
  cases h.shape with
  | starting subsystem hmode hphase hpends howned hdependencies hothers =>
      obtain ⟨hkind, rfl⟩ := hpends.of_action hpending
      rw [hkind]
      exact failInitialize_spec hcoordinated hmode hphase htaken
  | recovering subsystem hmode hphase hpends howned hdependencies hothers =>
      obtain ⟨hkind, rfl⟩ := hpends.of_action hpending
      rw [hkind]
      exact failRecover_spec hcoordinated hmode hphase rfl howned hothers htaken
  | preparingSleep subsystem hmode hphase hpends hmem hshared hkept =>
      obtain ⟨hkind, rfl⟩ := hpends.of_action hpending
      rw [hkind]
      exact failPrepareSleep_spec hcoordinated hmode hphase rfl hpends.state hmem hshared hkept
        htaken
  | waking subsystem hmode hphase hpends hmem hshared hothers =>
      obtain ⟨hkind, rfl⟩ := hpends.of_action hpending
      rw [hkind]
      exact failWake_spec hcoordinated hmode hphase rfl hpends.state hmem hshared hothers htaken
  | stopping subsystem hmode hpends hdown hunattempted hdependents =>
      obtain ⟨hkind, rfl⟩ := hpends.of_action hpending
      rw [hkind]
      exact failTeardown_spec hcoordinated (.inl ⟨hmode, hdown⟩) htaken
  | rollingBack subsystem hmode hphase hpends hdependents =>
      obtain ⟨hkind, rfl⟩ := hpends.of_action hpending
      rw [hkind]
      exact failTeardown_spec hcoordinated (.inr ⟨hmode, hphase⟩) htaken
  | running hmode hphase hidle hall =>
      rw [hidle] at hpending
      cases hpending
  | sleeping hmode hphase hidle hkept =>
      rw [hidle] at hpending
      cases hpending
  | idle hmode hidle hphase =>
      rw [hidle] at hpending
      cases hpending

/-- Exactly the pending action fails, whatever the error. -/
theorem failAction_spec (h : Steady owned) (hroom : HasRoom owned)
    (hpending : owned.currentAction = some action) :
    Succeeds (failAction action error) owned (Published owned) := by
  refine (validateAction_spec hpending).bind ?_
  rintro _ _ rfl
  refine .change ((failKind_spec h.sound hroom _ hpending).bind ?_)
  rintro _ last ⟨hsound, hunpublished⟩
  exact publish_spec h hroom hsound (hunpublished.after ⟨rfl, rfl, rfl⟩)

theorem failAction_stale (h : owned.currentAction ≠ some action) :
    Rejects (failAction action error) owned :=
  .bind (validateAction_stale h)

end Fail

/-! ## Requests -/

/-- What a request can do. -/
inductive Outcome (owned : EngineOwnedState) (call : EngineM EngineLifecycleSnapshot) : Prop
  | refused (h : Rejects call owned)
  | answered (h : Succeeds call owned fun snapshot last => snapshot = owned.latest ∧ last = owned)
  | deferred (hmode : owned.mode = .stopping) (h : Succeeds call owned fun snapshot last =>
      snapshot = owned.latest ∧ last = { owned with restartAfterStop := true })
  | published (h : Succeeds call owned (Published owned))

theorem latest_spec (owned : EngineOwnedState) :
    Succeeds latest owned fun snapshot last => snapshot = owned.latest ∧ last = owned :=
  .get (.ret ⟨rfl, rfl⟩)

/-- The engine runs with nothing under way. -/
theorem running_of_mode (h : Sound owned) : owned.mode = .running →
    owned.phase = .running ∧ owned.currentAction = none ∧
      ∀ subsystem, (owned.records subsystem).Kept := by
  intro hrunning
  cases h.shape with
  | running hmode hphase hidle hall => exact ⟨hphase, hidle, hall⟩
  | starting _ hmode | recovering _ hmode | preparingSleep _ hmode | waking _ hmode
  | stopping _ hmode | rollingBack _ hmode | sleeping hmode | idle hmode =>
      rw [hmode] at hrunning
      cases hrunning

/-- A ready subsystem of an engine that has nothing under way can report a failure. -/
theorem reportRuntimeFailure_spec (h : Steady owned) (hroom : HasRoom owned)
    (hsettled : owned.settled) (hready : ¬ ((owned.records subsystem).state ≠ .ready ∨
      (owned.records subsystem).ownsResources = false)) :
    Succeeds (reportRuntimeFailure subsystem error) owned (Published owned) := by
  obtain ⟨hphase, hidle, hall⟩ := running_of_mode h.sound hsettled.2.1
  refine .get (.passes (not_not_intro hsettled) (.passes hready (.put ?_)))
  split
  · refine publishes h hroom ⟨rfl, rfl, rfl⟩ (failEngine_spec h.sound.coordinated ?_ hidle
      ⟨hroom.revision, hroom.stateRevision, hroom.actionRevision, hroom.lifetime⟩)
    show owned.phase ≠ .stopped
    rw [hphase]
    decide
  · rename_i hterminal
    refine publish_spec h hroom ⟨h.sound.coordinated, .running hsettled.2.1 hphase hidle
      fun other => ?_⟩ ⟨rfl, rfl, rfl⟩
    show ((owned.setRecord subsystem _).records other).Kept
    rw [records_setRecord]
    split
    · show SubsystemRecord.Kept ⟨failedState error, (owned.records subsystem).ownsResources, _⟩
      rw [(hall subsystem).1]
      exact kept_of_failedState error _ (by simpa using hterminal)
    · exact hall other

theorem reportRuntimeFailure_outcome (h : Steady owned) (hroom : HasRoom owned) :
    Outcome owned (reportRuntimeFailure subsystem error) := by
  by_cases hsettled : owned.settled
  · by_cases hready : (owned.records subsystem).state ≠ .ready ∨
        (owned.records subsystem).ownsResources = false
    · exact .refused (.get (.passes (not_not_intro hsettled) (.fails hready)))
    · exact .published (reportRuntimeFailure_spec h hroom hsettled hready)
  · exact .refused (.get (.fails hsettled))

/-- A degraded subsystem can begin to recover once its dependencies serve. -/
theorem beginRecovery_spec (h : Steady owned) (hroom : HasRoom owned)
    (hfirst : ¬ (¬ owned.settled ∨ (owned.records subsystem).state ≠ .degraded))
    (hserve : owned.dependenciesServe subsystem = true) :
    Succeeds (beginRecovery subsystem) owned (Published owned) := by
  obtain ⟨hsettled, -⟩ := not_or.1 hfirst
  obtain ⟨hphase, -, hall⟩ := running_of_mode h.sound (not_not.1 hsettled).2.1
  refine .get (.passes hfirst (.passes (by simp [hserve]) (.put ?_)))
  refine Succeeds.bind (issueAction_spec subsystem .recover ?_) ?_
  · exact hroom.actionRevision
  rintro _ _ rfl
  refine publish_spec h hroom ⟨h.sound.coordinated, .recovering subsystem rfl hphase
    ⟨⟨_, rfl, rfl, rfl⟩, ?_⟩ ?_ ?_ ?_⟩ ⟨rfl, rfl, rfl⟩
  · show ((owned.setRecord subsystem _).records subsystem).state = .recovering
    rw [records_setRecord, if_pos rfl]
  · show ((owned.setRecord subsystem _).records subsystem).ownsResources = true
    rw [records_setRecord, if_pos rfl]
    exact (hall subsystem).1
  · show (owned.setRecord subsystem _).dependenciesServe subsystem = true
    rw [dependenciesServe_setRecord]
    exact hserve
  · intro other hother
    show ((owned.setRecord subsystem _).records other).Kept
    rw [records_setRecord, if_neg hother]
    exact hall other

theorem beginRecovery_outcome (h : Steady owned) (hroom : HasRoom owned) :
    Outcome owned (beginRecovery subsystem) := by
  by_cases hfirst : ¬ owned.settled ∨ (owned.records subsystem).state ≠ .degraded
  · exact .refused (.get (.fails hfirst))
  · by_cases hserve : owned.dependenciesServe subsystem = false
    · exact .refused (.get (.passes hfirst (.fails hserve)))
    · exact .published (beginRecovery_spec h hroom hfirst (by simpa using hserve))

/-! ## Sleep and wake -/

/-- A request has taken the pending action away and has not reached the coordinator yet. -/
structure Freed (owned mid : EngineOwnedState) : Prop extends Unpublished owned mid where
  coordinator : mid.coordinator = owned.coordinator
  actionRevision : mid.actionRevision = owned.actionRevision
  lifetime : mid.lifetime = owned.lifetime
  idle : mid.currentAction = none

theorem Freed.of_idle : owned.currentAction = none → Freed owned owned :=
  fun hidle => ⟨.refl owned, rfl, rfl, rfl, hidle⟩

/-- A cancelled action leaves its subsystem in a stable state. -/
theorem cancelTransitionAction_spec {kind : EngineLifecycleActionKind}
    (hpending : owned.currentAction = some action) (hkind : action.kind = kind) :
    Succeeds (cancelTransitionAction kind) owned fun _ last => Freed owned last ∧
      ∀ other ≠ action.subsystem, last.records other = owned.records other := by
  refine .get ?_
  rw [hpending]
  refine .passes (not_not_intro hkind) ⟨⟨⟩, _, rfl, ⟨⟨rfl, rfl, rfl⟩, rfl, rfl, rfl, rfl⟩, ?_⟩
  intro other hother
  show (owned.setRecord action.subsystem _).records other = owned.records other
  rw [records_setRecord, if_neg hother]

theorem startSleep_spec {mid : EngineOwnedState} (h : Steady owned) (hroom : HasRoom owned)
    (hfreed : Freed owned mid) (hphase : owned.phase = .running ∨ owned.phase = .waking)
    (hkept : (mid.records .sharedState).Kept) :
    Succeeds startSleep mid (Published owned) := by
  have hrevision := hroom.revision
  have haction := hfreed.actionRevision
  have hcounter := hroom.actionRevision
  refine Succeeds.bind (onCoordinator_spec (requestSleep_spec ?_ ?_ ?_)) ?_
  · rw [hfreed.coordinator]
    exact h.sound.coordinated
  · rw [hfreed.coordinator]
    exact hphase
  · rw [hfreed.coordinator]
    omega
  · rintro _ _ ⟨coordinator, hmoved, rfl⟩
    have hrevision' := hmoved.revision
    rw [hfreed.coordinator] at hrevision'
    refine .change (publishes h hroom ⟨hfreed.stateRevision, hfreed.generation, hfreed.latest⟩
      (scheduleNextSleepPreparation_spec
        ⟨hmoved.coordinated, rfl, hmoved.phase, hfreed.idle, ?_, hkept⟩ ?_ ?_))
    · simp [EngineSubsystem.participatesInSleep]
    · show coordinator.state.revision + 1 ≤ maxRevision
      omega
    · show mid.actionRevision < maxCounter
      omega

theorem startWake_spec {mid : EngineOwnedState} (h : Steady owned) (hroom : HasRoom owned)
    (hfreed : Freed owned mid) (hphase : owned.phase = .running ∨ owned.phase = .preparingSleep ∨
      owned.phase = .sleeping) (hkept : (mid.records .sharedState).Kept) :
    Succeeds startWake mid (Published owned) := by
  have hrevision := hroom.revision
  have haction := hfreed.actionRevision
  have hcounter := hroom.actionRevision
  refine Succeeds.bind (onCoordinator_spec (requestWake_spec ?_ ?_ ?_)) ?_
  · rw [hfreed.coordinator]
    exact h.sound.coordinated
  · rw [hfreed.coordinator]
    exact hphase
  · rw [hfreed.coordinator]
    omega
  · rintro _ _ ⟨coordinator, hmoved, rfl⟩
    have hrevision' := hmoved.revision
    rw [hfreed.coordinator] at hrevision'
    refine .change (publishes h hroom ⟨hfreed.stateRevision, hfreed.generation, hfreed.latest⟩
      (scheduleNextWake_spec ⟨hmoved.coordinated, rfl, hmoved.phase, hfreed.idle, ?_, ?_⟩ ?_ ?_))
    · simp [EngineSubsystem.participatesInSleep]
    · -- everything but the shared state is woken
      intro other hother
      have hshared : other = .sharedState := by
        by_contra hne
        simp [EngineSubsystem.participatesInSleep, EngineSubsystem.mem_all, hne] at hother
      rw [hshared]
      exact hkept
    · show coordinator.state.revision + 1 ≤ maxRevision
      omega
    · show mid.actionRevision < maxCounter
      omega

/-- The mode of a phase that a request looks at. -/
theorem sound_phase (h : Sound owned) :
    (owned.phase = .waking → owned.mode = .waking) ∧
      (owned.phase = .stopping → owned.mode = .stopping) ∧
      (owned.phase = .stopped → owned.mode = .idle) := by
  cases h.shape with
  | starting _ hmode hphase | recovering _ hmode hphase | preparingSleep _ hmode hphase
  | waking _ hmode hphase | rollingBack _ hmode hphase | running hmode hphase
  | sleeping hmode hphase => simp [hmode, hphase]
  | stopping _ hmode _ hdown =>
      rcases hdown with ⟨hphase, -⟩ | ⟨hphase, -⟩ <;> simp [hmode, hphase]
  | idle hmode _ hphase => rcases hphase with hphase | ⟨hphase, -⟩ <;> simp [hmode, hphase]

/-- A sleep that is admitted begins. -/
theorem admitSleep_spec (h : Sound owned) (hphase : owned.phase = .running ∧ owned.mode = .running ∨
      owned.phase = .waking) :
    Succeeds (admitSleep owned) owned fun _ last => Freed owned last ∧
      (last.records .sharedState).Kept := by
  unfold admitSleep
  rcases hphase with hrunning | hwaking
  · obtain ⟨-, hidle, hall⟩ := running_of_mode h hrunning.2
    rw [if_pos hrunning]
    exact .passes_last (not_not_intro hidle) ⟨.of_idle hidle, hall _⟩
  · have hmode := (sound_phase h).1 hwaking
    rw [if_neg (by simp [hwaking]), if_pos ⟨hwaking, hmode⟩]
    cases h.shape with
    | waking subsystem _ hphase hpends hmem hshared hothers =>
        obtain ⟨action, hcurrent, hkind, rfl⟩ := hpends.action
        have hne : EngineSubsystem.sharedState ≠ action.subsystem := fun heq =>
          hshared (heq ▸ hmem)
        refine (cancelTransitionAction_spec hcurrent hkind).mono ?_
        rintro _ last ⟨hfreed, hrecords⟩
        refine ⟨hfreed, ?_⟩
        rw [hrecords _ hne]
        exact hothers _ hshared
    | starting _ hmode' | recovering _ hmode' | preparingSleep _ hmode' | stopping _ hmode'
    | rollingBack _ hmode' | running hmode' | sleeping hmode' | idle hmode' =>
        rw [hmode] at hmode'
        cases hmode'

theorem beginSleep_outcome (h : Steady owned) (hroom : HasRoom owned) :
    Outcome owned beginSleep := by
  by_cases hsleeps : owned.phase = .preparingSleep ∨ owned.phase = .sleeping
  · refine .answered (.get ?_)
    rw [if_pos hsleeps]
    exact latest_spec owned
  · by_cases hadmitted : owned.phase = .running ∧ owned.mode = .running ∨ owned.phase = .waking
    · refine .published (.get ?_)
      rw [if_neg hsleeps]
      refine (admitSleep_spec h.sound hadmitted).bind ?_
      rintro _ last ⟨hfreed, hkept⟩
      exact startSleep_spec h hroom hfreed (hadmitted.imp_left And.left) hkept
    · refine .refused (.get ?_)
      rw [not_or] at hadmitted
      rw [if_neg hsleeps, admitSleep, if_neg hadmitted.1, if_neg fun hwaking =>
        hadmitted.2 hwaking.1]
      exact .bind (.raised _)

/-- A wake that is admitted begins. -/
theorem admitWake_spec (h : Sound owned)
    (hphase : owned.phase = .preparingSleep ∧ owned.mode = .preparingSleep ∨
      owned.phase = .sleeping ∧ owned.mode = .sleeping ∨
      owned.phase = .running ∧ owned.mode = .running) :
    Succeeds (admitWake owned) owned fun _ last => Freed owned last ∧
      (last.records .sharedState).Kept := by
  unfold admitWake
  rcases hphase with hpreparing | hsleeping | hrunning
  · rw [if_pos hpreparing]
    cases h.shape with
    | preparingSleep subsystem _ hphase hpends hmem hshared hkept =>
        obtain ⟨action, hcurrent, hkind, rfl⟩ := hpends.action
        have hne : EngineSubsystem.sharedState ≠ action.subsystem := fun heq =>
          hshared (heq ▸ hmem)
        refine (cancelTransitionAction_spec hcurrent hkind).mono ?_
        rintro _ last ⟨hfreed, hrecords⟩
        refine ⟨hfreed, ?_⟩
        rw [hrecords _ hne]
        exact hkept
    | starting _ hmode' | recovering _ hmode' | waking _ hmode' | stopping _ hmode'
    | rollingBack _ hmode' | running hmode' | sleeping hmode' | idle hmode' =>
        rw [hpreparing.2] at hmode'
        cases hmode'
  · rw [if_neg (by simp [hsleeping.1]), if_pos hsleeping]
    cases h.shape with
    | sleeping _ hphase hidle hkept => exact .ret ⟨.of_idle hidle, hkept⟩
    | starting _ hmode' | recovering _ hmode' | waking _ hmode' | stopping _ hmode'
    | rollingBack _ hmode' | running hmode' | preparingSleep _ hmode' | idle hmode' =>
        rw [hsleeping.2] at hmode'
        cases hmode'
  · obtain ⟨-, hidle, hall⟩ := running_of_mode h hrunning.2
    rw [if_neg (by simp [hrunning.1]), if_neg (by simp [hrunning.1]), if_pos hrunning]
    exact .passes_last (not_not_intro hidle) ⟨.of_idle hidle, hall _⟩

theorem beginWake_outcome (h : Steady owned) (hroom : HasRoom owned) :
    Outcome owned beginWake := by
  by_cases hwakes : owned.phase = .waking
  · refine .answered (.get ?_)
    rw [if_pos hwakes]
    exact .passes (not_not_intro ((sound_phase h.sound).1 hwakes)) (latest_spec owned)
  · by_cases hadmitted : owned.phase = .preparingSleep ∧ owned.mode = .preparingSleep ∨
        owned.phase = .sleeping ∧ owned.mode = .sleeping ∨
        owned.phase = .running ∧ owned.mode = .running
    · refine .published (.get ?_)
      rw [if_neg hwakes]
      refine (admitWake_spec h.sound hadmitted).bind ?_
      rintro _ last ⟨hfreed, hkept⟩
      refine startWake_spec h hroom hfreed ?_ hkept
      rcases hadmitted with hphase | hphase | hphase
      · exact .inr (.inl hphase.1)
      · exact .inr (.inr hphase.1)
      · exact .inl hphase.1
    · refine .refused (.get ?_)
      rw [not_or, not_or] at hadmitted
      rw [if_neg hwakes, admitWake, if_neg hadmitted.1, if_neg hadmitted.2.1,
        if_neg hadmitted.2.2]
      exact .bind (.raised _)

/-! ## Shutdown and restart -/

theorem Freed.of_cancelPendingAction : Freed owned owned.cancelPendingAction := by
  unfold cancelPendingAction
  cases hpending : owned.currentAction with
  | none => exact .of_idle hpending
  | some action => exact ⟨⟨rfl, rfl, rfl⟩, rfl, rfl, rfl, rfl⟩

theorem startShutdown_spec (h : Steady owned) (hroom : HasRoom owned)
    (hstopping : owned.phase ≠ .stopping) (hstopped : owned.phase ≠ .stopped)
    (restartAfterStop : Bool) :
    Succeeds (startShutdown restartAfterStop) owned (Published owned) := by
  have hrevision := hroom.revision
  have hcounter := hroom.actionRevision
  have hlifetime := hroom.lifetime
  refine .change ?_
  -- whatever is cancelled, only records change
  have hfreed : Freed owned ({ owned with restartAfterStop } : EngineOwnedState).cancelPendingAction :=
    have hcancelled : Freed { owned with restartAfterStop } _ := .of_cancelPendingAction
    ⟨hcancelled.toUnpublished.after ⟨rfl, rfl, rfl⟩, hcancelled.coordinator,
      hcancelled.actionRevision, hcancelled.lifetime, hcancelled.idle⟩
  generalize ({ owned with restartAfterStop } : EngineOwnedState).cancelPendingAction = mid at hfreed
  have haction := hfreed.actionRevision
  have hlife := hfreed.lifetime
  refine Succeeds.bind (onCoordinator_spec (requestShutdown_spec ?_ ?_ ?_ ?_)) ?_
  · show Coordinated mid.coordinator
    rw [hfreed.coordinator]
    exact h.sound.coordinated
  · show mid.coordinator.state.phase ≠ .stopping
    rw [hfreed.coordinator]
    exact hstopping
  · show mid.coordinator.state.phase ≠ .stopped
    rw [hfreed.coordinator]
    exact hstopped
  · show mid.coordinator.state.revision + 1 ≤ maxRevision
    rw [hfreed.coordinator]
    omega
  · rintro _ _ ⟨coordinator, hmoved, rfl⟩
    have hrevision' : coordinator.state.revision = mid.coordinator.state.revision + 1 :=
      hmoved.revision
    rw [hfreed.coordinator] at hrevision'
    refine .change (publishes h hroom ⟨hfreed.stateRevision, hfreed.generation, hfreed.latest⟩
      (scheduleNextTeardown_spec ⟨hmoved.coordinated, .inl ⟨rfl, .inl ⟨hmoved.phase, ?_⟩⟩⟩ ?_ ?_ ?_))
    · intro other hother
      exact absurd hother (Finset.notMem_empty other)
    · show coordinator.state.revision + 3 ≤ maxRevision
      omega
    · show mid.actionRevision < maxCounter
      omega
    · show mid.lifetime < maxCounter
      omega

theorem startRestart_spec (h : Steady owned) (hroom : HasRoom owned)
    (hphase : owned.phase = .stopped) :
    Succeeds startRestart owned (Published owned) := by
  have hrevision := hroom.revision
  refine .change (publishes h hroom ⟨rfl, rfl, rfl⟩ (startNewLifetime_spec ?_ ?_ ?_ ?_ ?_))
  · exact h.sound.coordinated
  · exact hphase
  · show owned.coordinator.state.revision + 2 ≤ maxRevision
    omega
  · exact hroom.actionRevision
  · exact hroom.lifetime

theorem beginShutdownWith_outcome (h : Steady owned) (hroom : HasRoom owned)
    (restartAfterStop : Bool) : Outcome owned (beginShutdownWith restartAfterStop) := by
  by_cases hstopped : owned.phase = .stopped
  · cases restartAfterStop with
    | true =>
        refine .published (.get ?_)
        rw [if_pos hstopped, if_pos rfl]
        exact startRestart_spec h hroom hstopped
    | false =>
        refine .answered (.get ?_)
        rw [if_pos hstopped, if_neg Bool.false_ne_true]
        exact latest_spec owned
  · by_cases hstops : owned.mode = .stopping ∧ owned.currentAction.isSome = true
    · cases restartAfterStop with
      | true =>
          refine .deferred hstops.1 (.get ?_)
          rw [if_neg hstopped, if_pos hstops]
          exact .put (latest_spec _)
      | false =>
          refine .answered (.get ?_)
          rw [if_neg hstopped, if_pos hstops]
          exact .put (latest_spec owned)
    · -- a teardown under way has a pending action, so this one is the first of its shutdown
      have hstopping : owned.phase ≠ .stopping := by
        intro hphase
        have hmode := (sound_phase h.sound).2.1 hphase
        refine hstops ⟨hmode, ?_⟩
        cases h.sound.shape with
        | stopping subsystem _ hpends =>
            obtain ⟨action, hcurrent, -⟩ := hpends.action
            rw [hcurrent]
            rfl
        | starting _ hmode' | recovering _ hmode' | waking _ hmode' | preparingSleep _ hmode'
        | rollingBack _ hmode' | running hmode' | sleeping hmode' | idle hmode' =>
            rw [hmode] at hmode'
            cases hmode'
      refine .published (.get ?_)
      rw [if_neg hstopped, if_neg hstops]
      exact startShutdown_spec h hroom hstopping hstopped restartAfterStop

theorem beginRestart_outcome (h : Steady owned) (hroom : HasRoom owned) :
    Outcome owned beginRestart := by
  by_cases hstopped : owned.phase = .stopped
  · refine .published (.get ?_)
    rw [if_pos hstopped]
    exact startRestart_spec h hroom hstopped
  · have hcall : beginRestart owned = beginShutdownWith true owned := by
      show (if owned.phase = .stopped then startRestart else beginShutdownWith true) owned = _
      rw [if_neg hstopped]
    cases beginShutdownWith_outcome h hroom true with
    | refused hrejects => exact .refused (by rwa [Rejects, hcall])
    | answered hreturns => exact .answered (by rwa [Succeeds, hcall])
    | deferred hmode hreturns => exact .deferred hmode (by rwa [Succeeds, hcall])
    | published hsucceeds => exact .published (by rwa [Succeeds, hcall])

/-! ## Any call -/

/-- What any call of the owner does. -/
theorem call_outcome (h : Steady owned) (hroom : HasRoom owned) (call : LifecycleCall) :
    Outcome owned call.run := by
  cases call with
  | completeAction action =>
      by_cases hpending : owned.currentAction = some action
      · exact .published (completeAction_spec h hroom hpending)
      · exact .refused (completeAction_stale hpending)
  | failAction action error =>
      by_cases hpending : owned.currentAction = some action
      · exact .published (failAction_spec h hroom hpending)
      · exact .refused (failAction_stale hpending)
  | reportRuntimeFailure subsystem error => exact reportRuntimeFailure_outcome h hroom
  | beginRecovery subsystem => exact beginRecovery_outcome h hroom
  | beginSleep => exact beginSleep_outcome h hroom
  | beginWake => exact beginWake_outcome h hroom
  | beginShutdown => exact beginShutdownWith_outcome h hroom false
  | beginRestart => exact beginRestart_outcome h hroom

/-- A call leaves the state alone, asks for a restart after the stop, or publishes. -/
theorem after_cases (h : Steady owned) (hroom : HasRoom owned) (call : LifecycleCall) :
    owned.after call = owned ∨
      owned.mode = .stopping ∧ owned.after call = { owned with restartAfterStop := true } ∨
      ∃ snapshot, Published owned snapshot (owned.after call) := by
  unfold after
  cases call_outcome h hroom call with
  | refused hrejects =>
      obtain ⟨error, hcall⟩ := hrejects
      simp [hcall]
  | answered hreturns =>
      obtain ⟨_, _, hcall, -, rfl⟩ := hreturns
      simp [hcall]
  | deferred hmode hreturns =>
      obtain ⟨_, _, hcall, -, rfl⟩ := hreturns
      simp [hcall, hmode]
  | published hsucceeds =>
      obtain ⟨snapshot, last, hcall, hpublished⟩ := hsucceeds
      rw [hcall]
      exact .inr (.inr ⟨snapshot, hpublished⟩)

end Engine
end Superi

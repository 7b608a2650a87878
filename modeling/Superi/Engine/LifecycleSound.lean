import Superi.Engine.LifecycleLaws

/-!
# LifecycleSound — the shapes of a running engine

`ModeSound` says, mode by mode, which action is pending and what the records look like.  The
scheduling steps of the source lead into one of these shapes from what their callers leave.
-/

namespace Superi
namespace Engine

open Core Concurrency Stateful

variable {owned last : EngineOwnedState} {subsystem other : EngineSubsystem}

/-! ## Shapes -/

/-- A subsystem that owns its resources and is at work, perhaps degraded. -/
def SubsystemRecord.Kept (record : SubsystemRecord) : Prop :=
  record.ownsResources = true ∧ (record.state = .ready ∨ record.state = .degraded)

/-- A subsystem that waits for its initialization. -/
def SubsystemRecord.Waits (record : SubsystemRecord) : Prop :=
  record.ownsResources = false ∧ record.state = .offline

namespace EngineOwnedState

/-- The pending action is of one kind, and its subsystem is in the matching state. -/
structure Pends (owned : EngineOwnedState) (kind : EngineLifecycleActionKind)
    (state : EngineSubsystemState) (subsystem : EngineSubsystem) : Prop where
  action : ∃ action, owned.currentAction = some action ∧ action.kind = kind ∧
    action.subsystem = subsystem
  state : (owned.records subsystem).state = state

/-- How far a teardown got: nothing failed yet and the attempted subsystems have released
everything, or something failed and is still owned. -/
def TearsDown (owned : EngineOwnedState) : Prop :=
  (owned.phase = .stopping ∧
      ∀ subsystem ∈ owned.teardownAttempted, (owned.records subsystem).ownsResources = false) ∨
    (owned.phase = .failed ∧
      ∃ subsystem ∈ owned.teardownAttempted, (owned.records subsystem).ownsResources = true)

/-- The shape of the engine in its mode. -/
inductive ModeSound (owned : EngineOwnedState) : Prop
  | starting (subsystem : EngineSubsystem) (hmode : owned.mode = .starting)
      (hphase : owned.phase = .starting) (hpends : owned.Pends .initializes .initializing subsystem)
      (howned : (owned.records subsystem).ownsResources = false)
      (hdependencies : owned.dependenciesServe subsystem = true)
      (hothers : ∀ other ≠ subsystem, owned.serves other = true ∨ (owned.records other).Waits)
  | running (hmode : owned.mode = .running) (hphase : owned.phase = .running)
      (hidle : owned.currentAction = none) (hall : ∀ subsystem, (owned.records subsystem).Kept)
  | recovering (subsystem : EngineSubsystem) (hmode : owned.mode = .recovering)
      (hphase : owned.phase = .running) (hpends : owned.Pends .recover .recovering subsystem)
      (howned : (owned.records subsystem).ownsResources = true)
      (hdependencies : owned.dependenciesServe subsystem = true)
      (hothers : ∀ other ≠ subsystem, (owned.records other).Kept)
  | preparingSleep (subsystem : EngineSubsystem) (hmode : owned.mode = .preparingSleep)
      (hphase : owned.phase = .preparingSleep)
      (hpends : owned.Pends .prepareSleep .preparingSleep subsystem)
      (hmem : subsystem ∈ owned.sleepPending) (hshared : .sharedState ∉ owned.sleepPending)
      (hkept : (owned.records .sharedState).Kept)
  | sleeping (hmode : owned.mode = .sleeping) (hphase : owned.phase = .sleeping)
      (hidle : owned.currentAction = none) (hkept : (owned.records .sharedState).Kept)
  | waking (subsystem : EngineSubsystem) (hmode : owned.mode = .waking)
      (hphase : owned.phase = .waking) (hpends : owned.Pends .wake .waking subsystem)
      (hmem : subsystem ∈ owned.wakePending) (hshared : .sharedState ∉ owned.wakePending)
      (hothers : ∀ other ∉ owned.wakePending, (owned.records other).Kept)
  | stopping (subsystem : EngineSubsystem) (hmode : owned.mode = .stopping)
      (hpends : owned.Pends .teardown .stopping subsystem) (hdown : owned.TearsDown)
      (hunattempted : subsystem ∉ owned.teardownAttempted)
      (hdependents : owned.hasOwnedDependent subsystem = false)
  | rollingBack (subsystem : EngineSubsystem) (hmode : owned.mode = .rollingBack)
      (hphase : owned.phase = .failed) (hpends : owned.Pends .teardown .stopping subsystem)
      (hdependents : owned.hasOwnedDependent subsystem = false)
  | idle (hmode : owned.mode = .idle) (hidle : owned.currentAction = none)
      (hphase : owned.phase = .failed ∨ (owned.phase = .stopped ∧
        ∀ subsystem, (owned.records subsystem).ownsResources = false))

/-- The coordinator and the engine fit together. -/
structure Sound (owned : EngineOwnedState) : Prop where
  coordinated : Coordinated owned.coordinator
  shape : owned.ModeSound

/-- What has been published is untouched. -/
structure Unpublished (owned last : EngineOwnedState) : Prop where
  stateRevision : last.stateRevision = owned.stateRevision
  generation : last.generation = owned.generation
  latest : last.latest = owned.latest

/-- Room below every counter for one more call. -/
structure HasRoom (owned : EngineOwnedState) : Prop where
  revision : owned.coordinator.state.revision + 4 ≤ maxRevision
  stateRevision : owned.stateRevision < maxCounter
  actionRevision : owned.actionRevision < maxCounter
  lifetime : owned.lifetime < maxCounter

end EngineOwnedState

open EngineOwnedState

/-! ## Records -/

@[simp] theorem records_setRecord (record : SubsystemRecord) :
    (owned.setRecord subsystem record).records other =
      if other = subsystem then record else owned.records other := by
  simp only [setRecord, Function.update_apply]

@[simp] theorem phase_setRecord (record : SubsystemRecord) :
    (owned.setRecord subsystem record).phase = owned.phase := rfl

theorem serves_iff : owned.serves subsystem = true ↔
    (owned.records subsystem).ownsResources = true ∧
      (owned.records subsystem).state = .ready := by
  simp [serves]

theorem dependenciesServe_iff : owned.dependenciesServe subsystem = true ↔
    ∀ dependency ∈ subsystem.dependencies, owned.serves dependency = true := by
  simp [dependenciesServe]

theorem kept_of_serves (h : owned.serves subsystem = true) : (owned.records subsystem).Kept :=
  ⟨(serves_iff.1 h).1, .inl (serves_iff.1 h).2⟩

/-- A subsystem is not among its own dependencies. -/
theorem not_mem_dependencies (subsystem : EngineSubsystem) :
    subsystem ∉ subsystem.dependencies := by
  cases subsystem <;> decide

/-- A change of one record is not seen by the subsystems it depends on. -/
theorem dependenciesServe_setRecord (record : SubsystemRecord) :
    (owned.setRecord subsystem record).dependenciesServe subsystem =
      owned.dependenciesServe subsystem := by
  rw [Bool.eq_iff_iff, dependenciesServe_iff, dependenciesServe_iff]
  refine forall₂_congr fun dependency hmem => ?_
  have hother : dependency ≠ subsystem := fun heq => not_mem_dependencies subsystem (heq ▸ hmem)
  simp only [serves, records_setRecord, if_neg hother]

theorem hasOwnedDependent_eq_false : owned.hasOwnedDependent subsystem = false ↔
    ∀ dependent, subsystem ∈ dependent.dependencies →
      (owned.records dependent).ownsResources = false := by
  rw [hasOwnedDependent, List.any_eq_false]
  constructor
  · intro h dependent hmem
    have hne : dependent ≠ subsystem := fun heq => not_mem_dependencies subsystem (heq ▸ hmem)
    have := h dependent dependent.mem_all
    simpa [hne, hmem] using this
  · intro h dependent _
    by_cases hmem : subsystem ∈ dependent.dependencies
    · simp [h dependent hmem]
    · simp [hmem]

/-- Nothing is owned, or something that nothing owned depends on is. -/
theorem exists_owned_without_dependent (howned : (owned.records subsystem).ownsResources = true) :
    ∃ last, (owned.records last).ownsResources = true ∧ owned.hasOwnedDependent last = false := by
  by_contra hnone
  -- then nothing is owned, from the last subsystem to the first
  have hall : ∀ subsystem, (owned.records subsystem).ownsResources = false := by
    refine EngineSubsystem.dependent_induction fun subsystem hdependents => ?_
    by_contra hthis
    rw [Bool.not_eq_false] at hthis
    exact hnone ⟨subsystem, hthis, hasOwnedDependent_eq_false.2 hdependents⟩
  rw [hall subsystem] at howned
  cases howned

theorem any_owned_eq_true : EngineSubsystem.all.any (fun subsystem =>
      (owned.records subsystem).ownsResources) = true ↔
    ∃ subsystem, (owned.records subsystem).ownsResources = true := by
  rw [List.any_eq_true]
  exact ⟨fun ⟨subsystem, _, h⟩ => ⟨subsystem, h⟩, fun ⟨subsystem, h⟩ => ⟨subsystem, subsystem.mem_all, h⟩⟩

/-! ## Steps -/

theorem EngineOwnedState.Unpublished.refl (owned : EngineOwnedState) : Unpublished owned owned :=
  ⟨rfl, rfl, rfl⟩

theorem EngineOwnedState.Unpublished.after {mid : EngineOwnedState} (h : Unpublished mid last)
    (h' : Unpublished owned mid) : Unpublished owned last :=
  ⟨h.stateRevision.trans h'.stateRevision, h.generation.trans h'.generation,
    h.latest.trans h'.latest⟩

/-- A call of the coordinator changes nothing else. -/
theorem onCoordinator_spec {α : Type} {call : EStateM Error SharedLifecycle α}
    {post : α → SharedLifecycle → Prop} (h : Succeeds call owned.coordinator post) :
    Succeeds (onCoordinator call) owned fun value last => ∃ coordinator,
      post value coordinator ∧ last = { owned with coordinator } :=
  h.onPart

theorem issueAction_spec (subsystem : EngineSubsystem) (kind : EngineLifecycleActionKind)
    (hroom : owned.actionRevision < maxCounter) :
    Succeeds (issueAction subsystem kind) owned fun _ last =>
      last = { owned with
        actionRevision := owned.actionRevision + 1
        currentAction := some ⟨subsystem, kind, owned.lifetime, owned.actionRevision + 1⟩ } :=
  .get (.passes (Nat.not_le.2 hroom) ⟨⟨⟩, _, rfl, rfl⟩)

/-- The subsystem of an assignment pends. -/
theorem assign_spec {kind : EngineLifecycleActionKind} {record : SubsystemRecord}
    (hroom : owned.actionRevision < maxCounter) :
    Succeeds (assign subsystem record kind) owned fun _ last =>
      last = { owned.setRecord subsystem record with
        actionRevision := owned.actionRevision + 1
        currentAction := some ⟨subsystem, kind, owned.lifetime, owned.actionRevision + 1⟩ } :=
  .change (issueAction_spec subsystem kind hroom)

/-- What an assignment leaves, as far as the shapes see it. -/
theorem assign_pends {kind : EngineLifecycleActionKind} {record : SubsystemRecord}
    (actionRevision : Nat) (action : EngineLifecycleAction) (hkind : action.kind = kind)
    (hsubsystem : action.subsystem = subsystem) :
    ({ owned.setRecord subsystem record with actionRevision, currentAction := some action } :
      EngineOwnedState).Pends kind record.state subsystem :=
  ⟨⟨action, rfl, hkind, hsubsystem⟩, by
    show ((owned.setRecord subsystem record).records subsystem).state = record.state
    rw [records_setRecord, if_pos rfl]⟩

/-- The transition under way completes. -/
theorem acknowledgeTransition_spec {target : LifecyclePhase} {message operation : String}
    (h : Coordinated owned.coordinator)
    (hrequires : owned.phase.requiresAcknowledgement = true)
    (hstable : target.requiresAcknowledgement = false)
    (htarget : Succeeds (completedPhase owned.coordinator.state) owned.coordinator.state
      fun completed last => completed = target ∧ last = owned.coordinator.state)
    (hroom : owned.coordinator.state.revision + 1 ≤ maxRevision) :
    Succeeds (acknowledgeTransition target message operation) owned fun _ last =>
      ∃ coordinator, Moved owned.coordinator coordinator target ∧
        last = { owned with coordinator } := by
  refine .get (.bind (onCoordinator_spec (acknowledge_spec h hrequires hstable htarget hroom)) ?_)
  rintro completed _ ⟨coordinator, ⟨hreached, hmoved⟩, rfl⟩
  exact .passes_last (not_not_intro hreached) ⟨coordinator, hmoved, rfl⟩

theorem failCoordinator_spec (h : Coordinated owned.coordinator) (hphase : owned.phase ≠ .stopped)
    (error : Error) (hroom : owned.coordinator.state.revision + 1 ≤ maxRevision) :
    Succeeds (failCoordinator error) owned fun _ last =>
      ∃ coordinator, Moved owned.coordinator coordinator .failed ∧
        last = { owned with coordinator } := by
  refine .bind (onCoordinator_spec (fail_spec h hphase error hroom)) ?_
  rintro _ _ ⟨coordinator, hmoved, rfl⟩
  exact .ret ⟨coordinator, hmoved, rfl⟩

/-! ## Initialization -/

/-- What the scheduling of an initialization finds. -/
structure Initializes (owned : EngineOwnedState) : Prop where
  coordinated : Coordinated owned.coordinator
  mode : owned.mode = .starting
  phase : owned.phase = .starting
  idle : owned.currentAction = none
  records : ∀ subsystem, owned.serves subsystem = true ∨ (owned.records subsystem).Waits

theorem scheduleNextInitialization_spec (h : Initializes owned)
    (hrevision : owned.coordinator.state.revision + 1 ≤ maxRevision)
    (haction : owned.actionRevision < maxCounter) :
    Succeeds scheduleNextInitialization owned fun _ last => Sound last ∧ Unpublished owned last := by
  refine .get ?_
  cases hfind : EngineSubsystem.all.find? owned.canInitialize with
  | some subsystem =>
      have hcan := List.find?_some hfind
      simp only [canInitialize, Bool.and_eq_true, Bool.not_eq_true', Bool.or_eq_false_iff] at hcan
      refine (assign_spec haction).mono ?_
      rintro _ _ rfl
      refine ⟨⟨h.coordinated, .starting subsystem h.mode h.phase
        (assign_pends _ _ rfl rfl) ?_ ?_ ?_⟩, ⟨rfl, rfl, rfl⟩⟩
      · show ((owned.setRecord subsystem _).records subsystem).ownsResources = false
        rw [records_setRecord, if_pos rfl]
        exact hcan.1.1
      · show (owned.setRecord subsystem _).dependenciesServe subsystem = true
        rw [dependenciesServe_setRecord]
        exact hcan.2
      · intro other hother
        show (owned.setRecord subsystem _).serves other = true ∨
          ((owned.setRecord subsystem _).records other).Waits
        simp only [serves, records_setRecord, if_neg hother]
        exact h.records other
  | none =>
      rw [List.find?_eq_none] at hfind
      -- in dependency order, a subsystem whose dependencies serve does not wait any more
      have hserves : ∀ subsystem, owned.serves subsystem = true := by
        refine EngineSubsystem.dependency_induction fun subsystem hdependencies => ?_
        rcases h.records subsystem with hserves | ⟨howned, hoffline⟩
        · exact hserves
        · refine absurd ?_ (hfind subsystem subsystem.mem_all)
          simp [canInitialize, howned, hoffline, dependenciesServe_iff.2 hdependencies]
      refine .get (.passes ?_ (.bind (acknowledgeTransition_spec h.coordinated ?_ rfl ?_
        hrevision) ?_))
      · rw [Bool.not_eq_true, List.any_eq_false]
        intro subsystem _
        simp [(serves_iff.1 (hserves subsystem)).1]
      · rw [h.phase]
        rfl
      · simp only [completedPhase, show owned.coordinator.state.phase = .starting from h.phase]
        exact .ret ⟨rfl, rfl⟩
      · rintro _ _ ⟨coordinator, hmoved, rfl⟩
        exact .change_last ⟨⟨hmoved.coordinated, .running rfl hmoved.phase h.idle
          fun subsystem => kept_of_serves (hserves subsystem)⟩, ⟨rfl, rfl, rfl⟩⟩

/-! ## Sleep and wake -/

/-- What the scheduling of a sleep preparation finds. -/
structure FallsAsleep (owned : EngineOwnedState) : Prop where
  coordinated : Coordinated owned.coordinator
  mode : owned.mode = .preparingSleep
  phase : owned.phase = .preparingSleep
  idle : owned.currentAction = none
  shared : .sharedState ∉ owned.sleepPending
  kept : (owned.records .sharedState).Kept

theorem scheduleNextSleepPreparation_spec (h : FallsAsleep owned)
    (hrevision : owned.coordinator.state.revision + 1 ≤ maxRevision)
    (haction : owned.actionRevision < maxCounter) :
    Succeeds scheduleNextSleepPreparation owned fun _ last =>
      Sound last ∧ Unpublished owned last := by
  refine .get ?_
  cases hfind : EngineSubsystem.all.reverse.find? fun subsystem =>
      decide (subsystem ∈ owned.sleepPending) with
  | some subsystem =>
      have hmem := List.find?_some hfind
      rw [decide_eq_true_eq] at hmem
      refine (assign_spec haction).mono ?_
      rintro _ _ rfl
      refine ⟨⟨h.coordinated, .preparingSleep subsystem h.mode h.phase
        (assign_pends _ _ rfl rfl) hmem h.shared ?_⟩, ⟨rfl, rfl, rfl⟩⟩
      have hother : EngineSubsystem.sharedState ≠ subsystem := fun heq => h.shared (heq ▸ hmem)
      show ((owned.setRecord subsystem _).records .sharedState).Kept
      rw [records_setRecord, if_neg hother]
      exact h.kept
  | none =>
      refine .bind (acknowledgeTransition_spec h.coordinated ?_ rfl ?_ hrevision) ?_
      · rw [h.phase]
        rfl
      · simp only [completedPhase, show owned.coordinator.state.phase = .preparingSleep from h.phase]
        exact .ret ⟨rfl, rfl⟩
      · rintro _ _ ⟨coordinator, hmoved, rfl⟩
        exact .change_last ⟨⟨hmoved.coordinated, .sleeping rfl hmoved.phase h.idle h.kept⟩,
          ⟨rfl, rfl, rfl⟩⟩

/-- What the scheduling of a wake finds. -/
structure WakesUp (owned : EngineOwnedState) : Prop where
  coordinated : Coordinated owned.coordinator
  mode : owned.mode = .waking
  phase : owned.phase = .waking
  idle : owned.currentAction = none
  shared : .sharedState ∉ owned.wakePending
  kept : ∀ subsystem ∉ owned.wakePending, (owned.records subsystem).Kept

theorem scheduleNextWake_spec (h : WakesUp owned)
    (hrevision : owned.coordinator.state.revision + 1 ≤ maxRevision)
    (haction : owned.actionRevision < maxCounter) :
    Succeeds scheduleNextWake owned fun _ last => Sound last ∧ Unpublished owned last := by
  refine .get ?_
  cases hfind : EngineSubsystem.all.find? fun subsystem =>
      decide (subsystem ∈ owned.wakePending) with
  | some subsystem =>
      have hmem := List.find?_some hfind
      rw [decide_eq_true_eq] at hmem
      refine (assign_spec haction).mono ?_
      rintro _ _ rfl
      refine ⟨⟨h.coordinated, .waking subsystem h.mode h.phase
        (assign_pends _ _ rfl rfl) hmem h.shared fun other hother => ?_⟩, ⟨rfl, rfl, rfl⟩⟩
      have hne : other ≠ subsystem := fun heq => hother (heq ▸ hmem)
      show ((owned.setRecord subsystem _).records other).Kept
      rw [records_setRecord, if_neg hne]
      exact h.kept other hother
  | none =>
      rw [List.find?_eq_none] at hfind
      refine .bind (acknowledgeTransition_spec h.coordinated ?_ rfl ?_ hrevision) ?_
      · rw [h.phase]
        rfl
      · simp only [completedPhase, show owned.coordinator.state.phase = .waking from h.phase]
        exact .ret ⟨h.coordinated.wakeTarget, rfl⟩
      · rintro _ _ ⟨coordinator, hmoved, rfl⟩
        refine .change_last ⟨⟨hmoved.coordinated, .running rfl hmoved.phase h.idle fun subsystem =>
          h.kept subsystem fun hmem => ?_⟩, ⟨rfl, rfl, rfl⟩⟩
        exact hfind subsystem subsystem.mem_all (decide_eq_true hmem)

/-! ## Teardown and restart -/

theorem startNewLifetime_spec (h : Coordinated owned.coordinator) (hphase : owned.phase = .stopped)
    (hrevision : owned.coordinator.state.revision + 2 ≤ maxRevision)
    (haction : owned.actionRevision < maxCounter) (hlifetime : owned.lifetime < maxCounter) :
    Succeeds startNewLifetime owned fun _ last => Sound last ∧ Unpublished owned last := by
  refine .get (.passes (not_not_intro hphase) (.bind (onCoordinator_spec
    (requestRestart_spec h hphase (by omega))) ?_))
  rintro _ _ ⟨coordinator, hmoved, rfl⟩
  refine .passes (Nat.not_le.2 hlifetime) (.change ?_)
  have hrevision' := hmoved.revision
  refine Succeeds.mono (scheduleNextInitialization_spec ?_ ?_ haction) ?_
  · exact ⟨hmoved.coordinated, rfl, hmoved.phase, rfl, fun _ => .inr ⟨rfl, rfl⟩⟩
  · show coordinator.state.revision + 1 ≤ maxRevision
    omega
  · rintro _ last ⟨hsound, hpublished⟩
    exact ⟨hsound, hpublished.after ⟨rfl, rfl, rfl⟩⟩

/-- What the scheduling of a teardown finds. -/
structure ReleasesResources (owned : EngineOwnedState) : Prop where
  coordinated : Coordinated owned.coordinator
  mode : owned.mode = .stopping ∧ owned.TearsDown ∨
    owned.mode = .rollingBack ∧ owned.phase = .failed

/-- A teardown in which nothing failed has a next step as long as something is owned. -/
theorem exists_canTearDown (hattempted : ∀ subsystem ∈ owned.teardownAttempted,
      (owned.records subsystem).ownsResources = false)
    (howned : (owned.records subsystem).ownsResources = true) :
    ∃ next, owned.canTearDown next = true := by
  obtain ⟨next, hnext, hdependents⟩ := exists_owned_without_dependent howned
  have hfresh : next ∉ owned.teardownAttempted := fun hmem => by
    rw [hattempted next hmem] at hnext
    cases hnext
  exact ⟨next, by simp [canTearDown, hnext, hdependents, hfresh]⟩

theorem acknowledgeStop_spec (h : Coordinated owned.coordinator) (hphase : owned.phase = .stopping)
    (hrevision : owned.coordinator.state.revision + 1 ≤ maxRevision) :
    Succeeds acknowledgeStop owned fun _ last => ∃ coordinator,
      Moved owned.coordinator coordinator .stopped ∧ last = { owned with coordinator } := by
  refine .get ?_
  rw [if_pos hphase]
  refine acknowledgeTransition_spec h ?_ rfl ?_ hrevision
  · rw [hphase]
    rfl
  · simp only [completedPhase, show owned.coordinator.state.phase = .stopping from hphase]
    exact .ret ⟨rfl, rfl⟩

theorem restartIfRequested_spec (h : Coordinated owned.coordinator) (hmode : owned.mode = .idle)
    (hidle : owned.currentAction = none) (hphase : owned.phase = .stopped)
    (hreleased : ∀ subsystem, (owned.records subsystem).ownsResources = false)
    (hrevision : owned.coordinator.state.revision + 2 ≤ maxRevision)
    (haction : owned.actionRevision < maxCounter) (hlifetime : owned.lifetime < maxCounter) :
    Succeeds restartIfRequested owned fun _ last => Sound last ∧ Unpublished owned last := by
  refine .get ?_
  split
  · refine .put (Succeeds.mono (startNewLifetime_spec ?_ ?_ ?_ ?_ ?_) ?_)
    · exact h
    · exact hphase
    · exact hrevision
    · exact haction
    · exact hlifetime
    · rintro _ last ⟨hsound, hpublished⟩
      exact ⟨hsound, hpublished.after ⟨rfl, rfl, rfl⟩⟩
  · exact .ret ⟨⟨h, .idle hmode hidle (.inr ⟨hphase, hreleased⟩)⟩, .refl _⟩

/-- Nothing is owned any more: the engine stops, or rests after a rollback. -/
theorem finishTeardown_spec (h : ReleasesResources owned) (hidle : owned.currentAction = none)
    (hreleased : ∀ subsystem, (owned.records subsystem).ownsResources = false)
    (hrevision : owned.coordinator.state.revision + 3 ≤ maxRevision)
    (haction : owned.actionRevision < maxCounter) (hlifetime : owned.lifetime < maxCounter) :
    Succeeds finishTeardown owned fun _ last => Sound last ∧ Unpublished owned last := by
  refine .get ?_
  rcases h.mode with ⟨hmode, hdown⟩ | ⟨hmode, hphase⟩
  · rcases hdown with ⟨hphase, -⟩ | ⟨-, failed, -, howned⟩
    · simp only [hmode]
      refine .bind (acknowledgeStop_spec h.coordinated hphase (by omega)) ?_
      rintro _ _ ⟨coordinator, hmoved, rfl⟩
      have hrevision' := hmoved.revision
      refine .change (Succeeds.mono (restartIfRequested_spec ?_ ?_ ?_ ?_ ?_ ?_ haction hlifetime) ?_)
      · exact hmoved.coordinated
      · rfl
      · exact hidle
      · exact hmoved.phase
      · exact hreleased
      · show coordinator.state.revision + 2 ≤ maxRevision
        omega
      · rintro _ last ⟨hsound, hpublished⟩
        exact ⟨hsound, hpublished.after ⟨rfl, rfl, rfl⟩⟩
    · -- a failed teardown is still owned
      rw [hreleased failed] at howned
      cases howned
  · simp only [hmode]
    exact ⟨⟨⟩, _, rfl, ⟨h.coordinated, .idle rfl hidle (.inl hphase)⟩, ⟨rfl, rfl, rfl⟩⟩

theorem scheduleNextTeardown_spec (h : ReleasesResources owned)
    (hrevision : owned.coordinator.state.revision + 3 ≤ maxRevision)
    (haction : owned.actionRevision < maxCounter) (hlifetime : owned.lifetime < maxCounter) :
    Succeeds scheduleNextTeardown owned fun _ last => Sound last ∧ Unpublished owned last := by
  refine .get ?_
  cases hfind : EngineSubsystem.all.reverse.find? owned.canTearDown with
  | some subsystem =>
      have hcan := List.find?_some hfind
      simp only [canTearDown, Bool.and_eq_true, decide_eq_true_eq, Bool.not_eq_true'] at hcan
      obtain ⟨⟨howned, hunattempted⟩, hdependents⟩ := hcan
      refine (assign_spec haction).mono ?_
      rintro _ _ rfl
      -- the record keeps its resources, so nothing changes for the others
      have howns (other : EngineSubsystem) : ((owned.setRecord subsystem
          { owned.records subsystem with state := .stopping }).records other).ownsResources =
            (owned.records other).ownsResources := by
        rw [records_setRecord]
        split
        · rename_i heq
          rw [heq]
        · rfl
      have hfree : (owned.setRecord subsystem { owned.records subsystem with
          state := .stopping }).hasOwnedDependent subsystem = false := by
        rw [hasOwnedDependent_eq_false] at hdependents ⊢
        intro dependent hmem
        rw [howns]
        exact hdependents dependent hmem
      refine ⟨⟨h.coordinated, ?_⟩, ⟨rfl, rfl, rfl⟩⟩
      rcases h.mode with ⟨hmode, hdown⟩ | ⟨hmode, hphase⟩
      · refine .stopping subsystem hmode (assign_pends _ _ rfl rfl) ?_ hunattempted hfree
        rcases hdown with ⟨hphase, hall⟩ | ⟨hphase, failed, hmem, hfailed⟩
        · exact .inl ⟨hphase, fun other hmem => (howns other).trans (hall other hmem)⟩
        · exact .inr ⟨hphase, failed, hmem, (howns failed).trans hfailed⟩
      · exact .rollingBack subsystem hmode hphase (assign_pends _ _ rfl rfl) hfree
  | none =>
      rw [List.find?_eq_none] at hfind
      refine .change (.get ?_)
      split
      · rename_i hany
        obtain ⟨kept, hkept⟩ := any_owned_eq_true.1 hany
        refine ⟨⟨⟩, _, rfl, ⟨h.coordinated, .idle rfl rfl (.inl ?_)⟩, ⟨rfl, rfl, rfl⟩⟩
        rcases h.mode with ⟨-, ⟨-, hall⟩ | ⟨hphase, -⟩⟩ | ⟨-, hphase⟩
        · obtain ⟨next, hnext⟩ := exists_canTearDown hall hkept
          exact absurd hnext (hfind next (List.mem_reverse.2 next.mem_all))
        · exact hphase
        · exact hphase
      · rename_i hany
        have hreleased : ∀ subsystem, (owned.records subsystem).ownsResources = false := by
          intro subsystem
          by_contra howned
          exact hany (any_owned_eq_true.2 ⟨subsystem, by simpa using howned⟩)
        refine Succeeds.mono (finishTeardown_spec ?_ ?_ ?_ ?_ haction hlifetime) ?_
        · exact ⟨h.coordinated, h.mode⟩
        · rfl
        · exact hreleased
        · exact hrevision
        · rintro _ last ⟨hsound, hpublished⟩
          exact ⟨hsound, hpublished.after ⟨rfl, rfl, rfl⟩⟩

end Engine
end Superi

import Superi.Engine.LifecycleCalls

/-!
# LifecycleRuns — runs of the engine lifecycle

Every state that a run reaches is steady, and a steady state is in order: an action is pending
exactly in the modes that wait for one, it can be finished and no other can, and work is admitted
only while everything it needs is ready.
-/

namespace Superi
namespace Engine

open Core Concurrency Stateful EngineOwnedState

variable {owned last : EngineOwnedState} {subsystem : EngineSubsystem}

/-! ## Runs -/

/-- A step of a run is a call that returns, well or not. -/
def lifecycleStep (owned : EngineOwnedState) (call : LifecycleCall) : Option EngineOwnedState :=
  some (owned.after call)

theorem new_steady : EngineLifecycle.new = .ok owned → Steady owned := by
  intro hnew
  have hcall : Succeeds (scheduleNextInitialization >>= fun _ => publish) .new
      (Published .new) := by
    refine Succeeds.bind (scheduleNextInitialization_spec ⟨⟨rfl, ?_, rfl, ?_⟩, rfl, ?_, rfl,
      fun _ => .inr ⟨rfl, rfl⟩⟩ (by decide) (by decide)) ?_
    · show (if (if solo.isEmpty then LifecyclePhase.running else .starting).requiresAcknowledgement
        then solo else ∅) = _
      rfl
    · rfl
    · show (if solo.isEmpty then LifecyclePhase.running else .starting) = .starting
      rw [solo_isEmpty]
      rfl
    · rintro _ last ⟨hsound, hunpublished⟩
      have hsame : last.generation = last.stateRevision :=
        hunpublished.generation.trans hunpublished.stateRevision.symm
      have hzero : last.stateRevision = 0 := hunpublished.stateRevision
      refine (publish_sound hsound hsame (by rw [hzero]; decide)).mono ?_
      rintro _ final ⟨hsteady, hnext, hsnapshot⟩
      exact ⟨hsteady, by rw [hnext, hunpublished.stateRevision], hsnapshot⟩
  obtain ⟨snapshot, last, hrun, hpublished⟩ := hcall
  unfold EngineLifecycle.new at hnew
  rw [hrun, Except.ok.injEq] at hnew
  rw [← hnew]
  exact hpublished.steady

theorem EngineOwnedState.Steady.deferred (h : Steady owned) (restartAfterStop : Bool) :
    Steady { owned with restartAfterStop } :=
  ⟨⟨h.sound.coordinated, h.sound.shape.publishes _ _ _ _⟩, h.latest, h.generation⟩

theorem EngineOwnedState.Steady.step {next : EngineOwnedState} {call : LifecycleCall} (h : Steady owned)
    (hroom : HasRoom owned) (hstep : lifecycleStep owned call = some next) : Steady next := by
  rw [← Option.some.inj hstep]
  rcases after_cases h hroom call with hsame | ⟨-, hdeferred⟩ | ⟨_, hpublished⟩
  · rwa [hsame]
  · rw [hdeferred]
    exact h.deferred true
  · exact hpublished.steady

/-! ## Admission of work -/

theorem subsystem_view (subsystem : EngineSubsystem) : owned.view.subsystem subsystem =
    some ⟨subsystem, (owned.records subsystem).state, (owned.records subsystem).ownsResources,
      (owned.records subsystem).failure⟩ := by
  cases subsystem <;> rfl

theorem firstDenial_view (work : EngineWorkKind) (required : List EngineSubsystem) :
    owned.view.firstDenial work required = none ↔
      ∀ subsystem ∈ required, (owned.records subsystem).state = .ready := by
  induction required with
  | nil => simp [EngineLifecycleSnapshot.firstDenial]
  | cons subsystem rest ih =>
      rw [EngineLifecycleSnapshot.firstDenial, subsystem_view, List.forall_mem_cons]
      by_cases hready : (owned.records subsystem).state = .ready
      · simp only [hready, ne_eq, not_true_eq_false, if_false, ih, true_and]
      · simp [hready]

/-- Work is admitted exactly when everything it needs is ready in a running engine. -/
theorem admitWork_view (work : EngineWorkKind) (permit : EngineWorkPermit) :
    owned.view.admitWork work = .granted permit ↔
      (owned.phase = .running ∧
        ∀ subsystem ∈ work.requiredSubsystems, (owned.records subsystem).state = .ready) ∧
      permit = ⟨work, owned.lifetime, owned.stateRevision⟩ := by
  rw [← firstDenial_view work, EngineLifecycleSnapshot.admitWork]
  by_cases hphase : owned.phase = .running
  · cases hdenial : owned.view.firstDenial work work.requiredSubsystems with
    | some denial => simp [hphase, view]
    | none => simp [hphase, view, eq_comm]
  · simp [hphase, view]

/-! ## Order -/

/-- The modes in which the engine waits for an action. -/
def EngineMode.acting : List EngineMode :=
  [.starting, .recovering, .preparingSleep, .waking, .stopping, .rollingBack]

/-- A lifecycle that is neither stuck nor out of order. -/
structure InOrder (owned : EngineOwnedState) : Prop where
  pending : owned.currentAction.isSome = true ↔ owned.mode ∈ EngineMode.acting
  finishes : HasRoom owned → ∀ action, owned.currentAction = some action →
    Succeeds (completeAction action) owned (Published owned) ∧
      ∀ error, Succeeds (failAction action error) owned (Published owned)
  rejects : ∀ action, owned.currentAction ≠ some action →
    Rejects (completeAction action) owned ∧ ∀ error, Rejects (failAction action error) owned
  dependencies : ∀ action, owned.currentAction = some action →
    action.kind = .initializes ∨ action.kind = .recover →
      ∀ dependency ∈ action.subsystem.dependencies,
        (owned.records dependency).ownsResources = true ∧
          (owned.records dependency).state = .ready
  dependents : ∀ action, owned.currentAction = some action → action.kind = .teardown →
    ∀ dependent, action.subsystem ∈ dependent.dependencies →
      (owned.records dependent).ownsResources = false
  released : owned.phase = .stopped → ∀ subsystem, (owned.records subsystem).ownsResources = false
  admits : ∀ work, (∃ permit, owned.latest.admitWork work = .granted permit) ↔
    owned.phase = .running ∧
      ∀ subsystem ∈ work.requiredSubsystems, (owned.records subsystem).state = .ready

/-- The pending action of a shape, or none. -/
theorem pending_cases (h : Sound owned) :
    owned.currentAction = none ∧ owned.mode ∉ EngineMode.acting ∨
      ∃ action, owned.currentAction = some action ∧ owned.mode ∈ EngineMode.acting ∧
        (action.kind = .initializes ∨ action.kind = .recover →
          owned.dependenciesServe action.subsystem = true) ∧
        (action.kind = .teardown → owned.hasOwnedDependent action.subsystem = false) := by
  cases h.shape with
  | starting subsystem hmode hphase hpends howned hdependencies hothers =>
      obtain ⟨action, hcurrent, hkind, rfl⟩ := hpends.action
      exact .inr ⟨action, hcurrent, by rw [hmode]; decide, fun _ => hdependencies,
        fun hteardown => by rw [hkind] at hteardown; cases hteardown⟩
  | recovering subsystem hmode hphase hpends howned hdependencies hothers =>
      obtain ⟨action, hcurrent, hkind, rfl⟩ := hpends.action
      exact .inr ⟨action, hcurrent, by rw [hmode]; decide, fun _ => hdependencies,
        fun hteardown => by rw [hkind] at hteardown; cases hteardown⟩
  | preparingSleep subsystem hmode hphase hpends hmem hshared hkept =>
      obtain ⟨action, hcurrent, hkind, rfl⟩ := hpends.action
      exact .inr ⟨action, hcurrent, by rw [hmode]; decide, by simp [hkind], by simp [hkind]⟩
  | waking subsystem hmode hphase hpends hmem hshared hothers =>
      obtain ⟨action, hcurrent, hkind, rfl⟩ := hpends.action
      exact .inr ⟨action, hcurrent, by rw [hmode]; decide, by simp [hkind], by simp [hkind]⟩
  | stopping subsystem hmode hpends hdown hunattempted hdependents =>
      obtain ⟨action, hcurrent, hkind, rfl⟩ := hpends.action
      exact .inr ⟨action, hcurrent, by rw [hmode]; decide, by simp [hkind], fun _ => hdependents⟩
  | rollingBack subsystem hmode hphase hpends hdependents =>
      obtain ⟨action, hcurrent, hkind, rfl⟩ := hpends.action
      exact .inr ⟨action, hcurrent, by rw [hmode]; decide, by simp [hkind], fun _ => hdependents⟩
  | running hmode hphase hidle hall => exact .inl ⟨hidle, by rw [hmode]; decide⟩
  | sleeping hmode hphase hidle hkept => exact .inl ⟨hidle, by rw [hmode]; decide⟩
  | idle hmode hidle hphase => exact .inl ⟨hidle, by rw [hmode]; decide⟩

theorem EngineOwnedState.Steady.released (h : Steady owned) : owned.phase = .stopped →
    ∀ subsystem, (owned.records subsystem).ownsResources = false := by
  intro hstopped
  have hidle := (sound_phase h.sound).2.2 hstopped
  cases h.sound.shape with
  | idle _ _ hphase =>
      rcases hphase with hfailed | ⟨-, hreleased⟩
      · rw [hstopped] at hfailed
        cases hfailed
      · exact hreleased
  | starting _ hmode | recovering _ hmode | waking _ hmode | preparingSleep _ hmode
  | rollingBack _ hmode | stopping _ hmode | running hmode | sleeping hmode =>
      rw [hidle] at hmode
      cases hmode

theorem EngineOwnedState.Steady.inOrder (h : Steady owned) : InOrder owned where
  pending := by
    rcases pending_cases h.sound with ⟨hnone, hmode⟩ | ⟨action, hcurrent, hmode, -⟩
    · simp [hnone, hmode]
    · simp [hcurrent, hmode]
  finishes hroom action hpending :=
    ⟨completeAction_spec h hroom hpending, fun _ => failAction_spec h hroom hpending⟩
  rejects action hother := ⟨completeAction_stale hother, fun _ => failAction_stale hother⟩
  dependencies := by
    intro action hpending hkind dependency hmem
    rcases pending_cases h.sound with ⟨hnone, -⟩ | ⟨pending, hcurrent, -, hserve, -⟩
    · rw [hnone] at hpending
      cases hpending
    · rw [hcurrent, Option.some.injEq] at hpending
      rw [hpending] at hserve
      exact serves_iff.1 (dependenciesServe_iff.1 (hserve hkind) dependency hmem)
  dependents := by
    intro action hpending hkind dependent hmem
    rcases pending_cases h.sound with ⟨hnone, -⟩ | ⟨pending, hcurrent, -, -, hfree⟩
    · rw [hnone] at hpending
      cases hpending
    · rw [hcurrent, Option.some.injEq] at hpending
      rw [hpending] at hfree
      exact hasOwnedDependent_eq_false.1 (hfree hkind) dependent hmem
  released := h.released
  admits := by
    intro work
    rw [h.latest]
    simp only [admitWork_view, exists_and_left, exists_eq, and_true]

/-! ## The run theorem -/

theorem not_stopping_of_running (h : Sound owned) :
    owned.phase = .running → owned.mode ≠ .stopping := by
  intro hphase hmode
  cases h.shape with
  | stopping _ _ _ hdown =>
      rcases hdown with ⟨hphase', -⟩ | ⟨hphase', -⟩ <;> rw [hphase] at hphase' <;> cases hphase'
  | starting _ hmode' | recovering _ hmode' | waking _ hmode' | preparingSleep _ hmode'
  | rollingBack _ hmode' | running hmode' | sleeping hmode' | idle hmode' =>
      rw [hmode] at hmode'
      cases hmode'

/-- What a call leaves is what was there, or something under a later revision. -/
theorem EngineOwnedState.Steady.later {reached next : EngineOwnedState} {call : LifecycleCall}
    (h : Steady owned) (hmode : reached.mode ≠ .stopping) (hroom : HasRoom owned)
    (hlater : owned = reached ∨ reached.stateRevision < owned.stateRevision)
    (hstep : lifecycleStep owned call = some next) :
    next = reached ∨ reached.stateRevision < next.stateRevision := by
  rw [← Option.some.inj hstep]
  rcases after_cases h hroom call with hsame | ⟨hstopping, hdeferred⟩ | ⟨_, hpublished⟩
  · rwa [hsame]
  · rcases hlater with rfl | hlater
    · exact absurd hstopping hmode
    · rw [hdeferred]
      exact .inr hlater
  · have hnext := hpublished.stateRevision
    refine .inr ?_
    rcases hlater with rfl | hlater <;> omega

/-- The state that granted a permit is still there, or the revision has moved on. -/
theorem later_of_running {reached : EngineOwnedState} {calls : List LifecycleCall}
    (h : Steady reached) (hphase : reached.phase = .running)
    (hrun : Machine.run lifecycleStep reached calls = some last)
    (hroom : Machine.EveryStep lifecycleStep (fun owned _ => HasRoom owned) reached calls) :
    last = reached ∨ reached.stateRevision < last.stateRevision := by
  have hmode := not_stopping_of_running h.sound hphase
  have hkeep {state next : EngineOwnedState} {call : LifecycleCall}
      (hstate : Steady state ∧ (state = reached ∨ reached.stateRevision < state.stateRevision))
      (hroom : HasRoom state) (hstep : lifecycleStep state call = some next) :
      Steady next ∧ (next = reached ∨ reached.stateRevision < next.stateRevision) :=
    ⟨hstate.1.step hroom hstep, hstate.1.later hmode hroom hstate.2 hstep⟩
  have hlast : Steady last ∧ (last = reached ∨ reached.stateRevision < last.stateRevision) :=
    Machine.invariant_of_run hkeep ⟨h, .inl rfl⟩ hrun hroom
  exact hlast.2

theorem lifecycle_in_order {start last : EngineOwnedState} {calls : List LifecycleCall}
    (hstart : EngineLifecycle.new = .ok start)
    (hrun : Machine.run lifecycleStep start calls = some last)
    (hroom : Machine.EveryStep lifecycleStep (fun owned _ => HasRoom owned) start calls) :
    InOrder last ∧
      ∀ before after reached, calls = before ++ after →
        Machine.run lifecycleStep start before = some reached →
        ∀ work permit, reached.latest.admitWork work = .granted permit →
          last.latest.isPermitCurrent permit = true → last = reached := by
  have hsteady {calls : List LifecycleCall} {reached : EngineOwnedState}
      (hrun : Machine.run lifecycleStep start calls = some reached)
      (hroom : Machine.EveryStep lifecycleStep (fun owned _ => HasRoom owned) start calls) :
      Steady reached :=
    Machine.invariant_of_run (fun h hroom hstep => h.step hroom hstep) (new_steady hstart) hrun hroom
  refine ⟨(hsteady hrun hroom).inOrder, ?_⟩
  rintro before after reached rfl hbefore work permit hgranted hcurrent
  have hreached := hsteady hbefore hroom.left
  rw [hreached.latest, admitWork_view] at hgranted
  obtain ⟨⟨hphase, -⟩, rfl⟩ := hgranted
  have hafter : Machine.run lifecycleStep reached after = some last := by
    rw [Machine.run_append, hbefore] at hrun
    exact hrun
  rcases later_of_running hreached hphase hafter (hroom.right hbefore) with hsame | hlater
  · exact hsame
  · -- the permit carries the revision it was granted under
    rw [(hsteady hrun hroom).latest] at hcurrent
    simp only [EngineLifecycleSnapshot.isPermitCurrent, Bool.and_eq_true, decide_eq_true_eq]
      at hcurrent
    have hrevision : reached.stateRevision = last.stateRevision := hcurrent.1.2
    omega

instance : Decidable (HasRoom owned) :=
  decidable_of_iff (owned.coordinator.state.revision + 4 ≤ maxRevision ∧
      owned.stateRevision < maxCounter ∧ owned.actionRevision < maxCounter ∧
      owned.lifetime < maxCounter)
    ⟨fun ⟨hrevision, hstate, haction, hlifetime⟩ => ⟨hrevision, hstate, haction, hlifetime⟩,
      fun ⟨hrevision, hstate, haction, hlifetime⟩ => ⟨hrevision, hstate, haction, hlifetime⟩⟩

/-- The engine as its owner gets it. -/
def startedEngine : EngineOwnedState :=
  match EngineLifecycle.new with
  | .ok owned => owned
  | .error _ => .new

/-- A shutdown once the shared state is there waits for its teardown. -/
theorem lifecycle_in_order_shutdown :
    ∃ last, Machine.run lifecycleStep startedEngine
        [.completeAction ⟨.sharedState, .initializes, 1, 1⟩, .beginShutdown] = some last ∧
      last.currentAction = some ⟨.sharedState, .teardown, 1, 3⟩ ∧ InOrder last := by
  have hfirst : HasRoom startedEngine := by decide +kernel
  have hsecond : HasRoom (startedEngine.after
      (.completeAction ⟨.sharedState, .initializes, 1, 1⟩)) := by decide +kernel
  have hstart : EngineLifecycle.new = .ok startedEngine := rfl
  have hrun : Machine.run lifecycleStep startedEngine
      [.completeAction ⟨.sharedState, .initializes, 1, 1⟩, .beginShutdown] =
        some ((startedEngine.after (.completeAction ⟨.sharedState, .initializes, 1, 1⟩)).after
          .beginShutdown) := rfl
  refine ⟨_, hrun, by decide +kernel, (lifecycle_in_order hstart hrun ?_).1⟩
  exact .cons hfirst rfl (.cons hsecond rfl .nil)

end Engine
end Superi

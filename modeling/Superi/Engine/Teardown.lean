import Mathlib
import Superi.Engine.LifecycleRuns

/-!
# Teardown — how far a shutdown has come

Every teardown that ends, well or not, brings a shutdown nearer to its end: one more subsystem has
been attempted, or the engine rests, or the next lifetime has begun.
-/

namespace Superi
namespace Engine

open Core Concurrency Stateful EngineOwnedState

variable {owned last : EngineOwnedState} {action : EngineLifecycleAction}

/-! ## One step down -/

/-- What the scheduling of a teardown leads to. -/
inductive Scheduled (owned last : EngineOwnedState) : Prop
  | continues (mode : last.mode = .stopping) (lifetime : last.lifetime = owned.lifetime)
      (phase : last.phase = owned.phase)
      (attempted : last.teardownAttempted = owned.teardownAttempted)
  | rests (mode : last.mode = .idle) (phase : last.phase = .failed → owned.phase = .failed)
  | restarts (lifetime : last.lifetime = owned.lifetime + 1)

/-- What the end of a teardown leads to. -/
inductive Descends (fails : Prop) (owned last : EngineOwnedState) : Prop
  | continues (mode : last.mode = .stopping) (lifetime : last.lifetime = owned.lifetime)
      (phase : last.phase = .failed → owned.phase = .failed ∨ fails)
      (attempted : owned.teardownAttempted.card < last.teardownAttempted.card)
  | rests (mode : last.mode = .idle) (phase : last.phase = .failed → owned.phase = .failed ∨ fails)
  | restarts (lifetime : last.lifetime = owned.lifetime + 1)

theorem Descends.mono {fails fails' : Prop} (h : Descends fails owned last)
    (hfails : fails → fails') : Descends fails' owned last := by
  cases h with
  | continues mode lifetime phase attempted =>
      exact .continues mode lifetime (fun hfailed => (phase hfailed).imp_right hfails) attempted
  | rests mode phase => exact .rests mode fun hfailed => (phase hfailed).imp_right hfails
  | restarts lifetime => exact .restarts lifetime

theorem onCoordinator_ensures {α : Type} (call : EStateM Error SharedLifecycle α) :
    Ensures (onCoordinator call) owned
      (fun value last => ∃ coordinator, call owned.coordinator = .ok value coordinator ∧
        last = { owned with coordinator }) fun _ => True := by
  refine .onPart ?_
  unfold Ensures
  cases call owned.coordinator with
  | ok value coordinator => exact ⟨coordinator, rfl, rfl⟩
  | error error coordinator => trivial

theorem issueAction_ensures (subsystem : EngineSubsystem) (kind : EngineLifecycleActionKind) :
    Ensures (issueAction subsystem kind) owned
      (fun _ last => ∃ actionRevision currentAction,
        last = { owned with actionRevision, currentAction }) fun _ => True :=
  .get (.check trivial fun _ => .put_last ⟨_, _, rfl⟩)

theorem assign_ensures (subsystem : EngineSubsystem) (record : SubsystemRecord)
    (kind : EngineLifecycleActionKind) :
    Ensures (assign subsystem record kind) owned
      (fun _ last => ∃ records actionRevision currentAction,
        last = { owned with records, actionRevision, currentAction }) fun _ => True := by
  refine .change ((issueAction_ensures subsystem kind).mono ?_ fun _ _ => trivial)
  rintro _ _ ⟨actionRevision, currentAction, rfl⟩
  exact ⟨_, actionRevision, currentAction, rfl⟩

theorem failCoordinator_ensures (error : Error) : Ensures (failCoordinator error) owned
    (fun _ last => ∃ coordinator, last = { owned with coordinator }) fun _ => True := by
  refine (onCoordinator_ensures _).bind ?_
  rintro _ _ ⟨coordinator, -, rfl⟩
  exact .ret ⟨coordinator, rfl⟩

/-- An acknowledged transition has reached its phase. -/
theorem acknowledgeTransition_ensures (expected : LifecyclePhase) (message operation : String) :
    Ensures (acknowledgeTransition expected message operation) owned
      (fun _ last => last.phase = expected ∧ ∃ coordinator, last = { owned with coordinator })
      fun _ => True := by
  refine .get ((onCoordinator_ensures _).bind ?_)
  rintro completed _ ⟨coordinator, hcall, rfl⟩
  refine .check_last trivial fun hphase => ⟨?_, coordinator, rfl⟩
  rw [← not_not.1 hphase]
  -- the snapshot shows the state the acknowledgement left
  unfold acknowledge update at hcall
  split at hcall
  · cases hcall
  · cases hcall
    rfl

theorem scheduleNextInitialization_ensures : Ensures scheduleNextInitialization owned
    (fun _ last => last.lifetime = owned.lifetime) fun _ => True := by
  refine .get ?_
  split
  · refine (assign_ensures _ _ _).mono ?_ fun _ _ => trivial
    rintro _ _ ⟨records, actionRevision, currentAction, rfl⟩
    rfl
  · refine .get (.check trivial fun _ => (acknowledgeTransition_ensures _ _ _).bind ?_)
    rintro _ _ ⟨-, coordinator, rfl⟩
    exact .change_last rfl

theorem startNewLifetime_ensures : Ensures startNewLifetime owned
    (fun _ last => last.lifetime = owned.lifetime + 1) fun _ => True := by
  refine .get (.check trivial fun _ => (onCoordinator_ensures _).bind ?_)
  rintro _ _ ⟨coordinator, -, rfl⟩
  exact .check trivial fun _ => .change scheduleNextInitialization_ensures

theorem acknowledgeStop_ensures : Ensures acknowledgeStop owned
    (fun _ last => (last.phase = .failed → owned.phase = .failed) ∧
      last.lifetime = owned.lifetime) fun _ => True := by
  refine .get ?_
  split
  · refine (acknowledgeTransition_ensures _ _ _).mono ?_ fun _ _ => trivial
    rintro _ _ ⟨hphase, coordinator, rfl⟩
    refine ⟨fun hfailed => ?_, rfl⟩
    rw [hphase] at hfailed
    cases hfailed
  · exact .ret ⟨id, rfl⟩

theorem finishTeardown_ensures (hmode : owned.mode = .stopping) : Ensures finishTeardown owned
    (fun _ => Scheduled owned) fun _ => True := by
  refine .get ?_
  simp only [hmode]
  refine acknowledgeStop_ensures.bind ?_
  rintro _ mid ⟨hphase, hlifetime⟩
  refine .change (.get ?_)
  split
  · refine .put (startNewLifetime_ensures.mono ?_ fun _ _ => trivial)
    intro _ last hnext
    exact .restarts (hnext.trans (congrArg (· + 1) hlifetime))
  · exact .ret (.rests rfl hphase)

theorem scheduleNextTeardown_ensures (hmode : owned.mode = .stopping) :
    Ensures scheduleNextTeardown owned (fun _ => Scheduled owned) fun _ => True := by
  refine .get ?_
  split
  · refine (assign_ensures _ _ _).mono ?_ fun _ _ => trivial
    rintro _ _ ⟨records, actionRevision, currentAction, rfl⟩
    exact .continues hmode rfl rfl rfl
  · refine .change (.get ?_)
    split
    · exact .put_last (.rests rfl id)
    · refine Ensures.mono (finishTeardown_ensures ?_) ?_ fun _ _ => trivial
      · exact hmode
      rintro _ last hscheduled
      cases hscheduled with
      | continues mode lifetime phase attempted => exact .continues mode lifetime phase attempted
      | rests mode phase => exact .rests mode phase
      | restarts lifetime => exact .restarts lifetime

/-! ## The end of a teardown -/

section End

variable (hfresh : action.subsystem ∉ owned.teardownAttempted)
include hfresh

theorem Scheduled.descends {fails : Prop} {mid : EngineOwnedState} (h : Scheduled mid last)
    (hlifetime : mid.lifetime = owned.lifetime)
    (hphase : mid.phase = .failed → owned.phase = .failed ∨ fails)
    (hattempted : mid.teardownAttempted = insert action.subsystem owned.teardownAttempted) :
    Descends fails owned last := by
  cases h with
  | continues mode lifetime phase attempted =>
      refine .continues mode (lifetime.trans hlifetime) (fun hfailed => ?_) ?_
      · rw [phase] at hfailed
        exact hphase hfailed
      · rw [attempted, hattempted, Finset.card_insert_of_notMem hfresh]
        exact Nat.lt_succ_self _
  | rests mode phase => exact .rests mode fun hfailed => hphase (phase hfailed)
  | restarts lifetime => exact .restarts (by rw [lifetime, hlifetime])

theorem attempted_ensures {fails : Prop} {mid : EngineOwnedState} (hmode : mid.mode = .stopping)
    (hlifetime : mid.lifetime = owned.lifetime)
    (hphase : mid.phase = .failed → owned.phase = .failed ∨ fails)
    (hattempted : mid.teardownAttempted = insert action.subsystem owned.teardownAttempted) :
    Ensures scheduleNextTeardown mid (fun _ => Descends fails owned) fun _ => True := by
  refine (scheduleNextTeardown_ensures hmode).mono ?_ fun _ _ => trivial
  intro _ last hscheduled
  exact hscheduled.descends hfresh hlifetime hphase hattempted

variable (hmode : owned.mode = .stopping)
include hmode

theorem completeTeardown_ensures : Ensures (completeTeardown action) owned
    (fun _ => Descends False owned) fun _ => True :=
  .get (.check trivial fun _ => .put (attempted_ensures hfresh hmode rfl .inl rfl))

theorem failTeardown_ensures (error : Error) : Ensures (failTeardown action error) owned
    (fun _ => Descends True owned) fun _ => True := by
  refine .get (.check trivial fun _ => .put ((failCoordinator_ensures error).bind ?_))
  rintro _ _ ⟨coordinator, rfl⟩
  exact attempted_ensures hfresh hmode rfl (fun _ => .inr trivial) rfl

end End

/-- A shutdown waits for a teardown that has not been attempted. -/
theorem teardown_of_stopping (h : Sound owned) (hmode : owned.mode = .stopping) :
    ∃ action, owned.currentAction = some action ∧ action.kind = .teardown ∧
      action.subsystem ∉ owned.teardownAttempted := by
  cases h.shape with
  | stopping subsystem _ hpends _ hunattempted =>
      obtain ⟨action, hcurrent, hkind, rfl⟩ := hpends.action
      exact ⟨action, hcurrent, hkind, hunattempted⟩
  | starting _ hmode' | recovering _ hmode' | preparingSleep _ hmode' | waking _ hmode'
  | rollingBack _ hmode' | running hmode' | sleeping hmode' | idle hmode' =>
      rw [hmode] at hmode'
      cases hmode'

theorem Descends.published {fails : Prop} {mid : EngineOwnedState} (h : Descends fails owned mid) :
    Ensures publish mid (fun _ => Descends fails owned) fun _ => True := by
  refine .get (.check trivial fun _ => .check trivial fun _ => .put (.ret ?_))
  cases h with
  | continues mode lifetime phase attempted => exact .continues mode lifetime phase attempted
  | rests mode phase => exact .rests mode phase
  | restarts lifetime => exact .restarts lifetime

/-- The call takes the pending action away before it works on the rest. -/
theorem Descends.of_taken {fails : Prop} {lastFailure : Option EngineFailureSnapshot}
    (h : Descends fails { owned with lastFailure, currentAction := none } last) :
    Descends fails owned last := by
  cases h with
  | continues mode lifetime phase attempted => exact .continues mode lifetime phase attempted
  | rests mode phase => exact .rests mode phase
  | restarts lifetime => exact .restarts lifetime

section Progress

variable (h : Sound owned) (hmode : owned.mode = .stopping)
  (hpending : owned.currentAction = some action)
include h hmode hpending

theorem completeAction_descends : Ensures (completeAction action) owned
    (fun _ => Descends False owned) fun _ => True := by
  obtain ⟨pending, hcurrent, hkind, hfresh⟩ := teardown_of_stopping h hmode
  rw [hpending, Option.some.injEq] at hcurrent
  subst hcurrent
  refine (Ensures.of_succeeds (validateAction_spec hpending)).bind ?_
  rintro _ owned rfl
  refine .change (.through (fun _ => Descends False owned) ?_ fun _ _ hmid => hmid.published)
  rw [completeKind, hkind]
  refine Ensures.mono (completeTeardown_ensures ?_ ?_) ?_ fun _ _ => trivial
  · exact hfresh
  · exact hmode
  · exact fun _ _ hlast => hlast.of_taken

theorem failAction_descends (error : Error) : Ensures (failAction action error) owned
    (fun _ => Descends True owned) fun _ => True := by
  obtain ⟨pending, hcurrent, hkind, hfresh⟩ := teardown_of_stopping h hmode
  rw [hpending, Option.some.injEq] at hcurrent
  subst hcurrent
  refine (Ensures.of_succeeds (validateAction_spec hpending)).bind ?_
  rintro _ owned rfl
  refine .change (.through (fun _ => Descends True owned) ?_ fun _ _ hmid => hmid.published)
  rw [failKind, hkind]
  refine Ensures.mono (failTeardown_ensures ?_ ?_ error) ?_ fun _ _ => trivial
  · exact hfresh
  · exact hmode
  · exact fun _ _ hlast => hlast.of_taken

end Progress

end Engine
end Superi

import Superi.Engine.Dispatcher
import Superi.Engine.LifecycleRuns

/-!
# DispatcherLaws — the pending recovery beside the pending action

While a classified recovery is pending, the lifecycle waits for the very action the recovery was
issued with.  Every command keeps the two in step, except a shutdown or a restart, which replaces
the action behind the recovery's back.
-/

namespace Superi
namespace Engine

open Core Concurrency Stateful EngineOwnedState

variable {owners : OtherOwners} {owned : EngineOwnedState}
variable {dispatcher last : EngineCommandDispatcher owners}

/-! ## Lifecycle calls -/

/-- A failed call changes nothing, and a call that returns hands out the latest snapshot. -/
theorem Outcome.ensures {call : EngineM EngineLifecycleSnapshot} (h : Outcome owned call)
    (hsteady : Steady owned) : Ensures call owned
      (fun snapshot last => Steady last ∧ snapshot = last.latest) fun last => last = owned := by
  cases h with
  | refused hrejects => exact .of_rejects hrejects rfl
  | answered hreturns =>
      refine .of_succeeds (hreturns.mono ?_)
      rintro snapshot _ ⟨rfl, rfl⟩
      exact ⟨hsteady, rfl⟩
  | deferred hmode hreturns =>
      refine .of_succeeds (hreturns.mono ?_)
      rintro snapshot _ ⟨rfl, rfl⟩
      exact ⟨hsteady.deferred true, rfl⟩
  | published hsucceeds =>
      exact .of_succeeds (hsucceeds.mono fun _ _ h => ⟨h.steady, h.snapshot⟩)

/-- A recovery pends only in a running engine that is recovering. -/
theorem recovering_of_pending {action : EngineLifecycleAction} (h : Sound owned)
    (hpending : owned.currentAction = some action) (hkind : action.kind = .recover) :
    owned.mode = .recovering ∧ owned.phase = .running := by
  cases h.shape with
  | recovering _ hmode hphase => exact ⟨hmode, hphase⟩
  | starting _ _ _ hpends | preparingSleep _ _ _ hpends | waking _ _ _ hpends
  | stopping _ _ hpends | rollingBack _ _ _ hpends =>
      rw [(hpends.of_action hpending).1] at hkind
      cases hkind
  | running _ _ hidle | sleeping _ _ hidle | idle _ hidle =>
      rw [hidle] at hpending
      cases hpending

section Busy

variable (hmode : owned.mode = .recovering) (hphase : owned.phase = .running)
include hmode

theorem not_settled_of_recovering : ¬ owned.settled := by
  intro hsettled
  rw [hsettled.2.1] at hmode
  cases hmode

include hphase

theorem beginSleep_busy : Rejects beginSleep owned := by
  refine .get ?_
  rw [if_neg (by simp [hphase]), admitSleep, if_neg (by simp [hmode]), if_neg (by simp [hphase])]
  exact .bind (.raised _)

theorem beginWake_busy : Rejects beginWake owned := by
  refine .get ?_
  rw [if_neg (by simp [hphase]), admitWake, if_neg (by simp [hmode]), if_neg (by simp [hmode]),
    if_neg (by simp [hmode])]
  exact .bind (.raised _)

end Busy

/-! ## The error coordinator -/

section Control

variable {control : EngineControl} {action : EngineRecoveryAction}

/-- The recovery token and the lifecycle's pending action are in step. -/
structure Issued (control : EngineControl) (action : EngineRecoveryAction) : Prop where
  pending : control.lifecycle.currentAction = some action.lifecycleAction
  kind : action.lifecycleAction.kind = .recover
  active : ∃ active, control.errors.active action.subsystem = some active ∧
    active.sequence = action.sequence ∧ active.recoveryAttempts = action.attempt ∧
    active.disposition.recoveryRequest = some action.request

theorem Issued.recovering (h : Issued control action) (hsteady : Steady control.lifecycle) :
    control.lifecycle.mode = .recovering ∧ control.lifecycle.phase = .running :=
  recovering_of_pending hsteady.sound h.pending h.kind

/-- A lifecycle call made by the coordinator. -/
theorem onLifecycle_ensures {call : EngineM EngineLifecycleSnapshot}
    (h : Outcome control.lifecycle call) (hsteady : Steady control.lifecycle) :
    Ensures (onLifecycle call) control
      (fun snapshot last => ∃ lifecycle, Steady lifecycle ∧ snapshot = lifecycle.latest ∧
        last = { control with lifecycle }) fun last => last = control := by
  refine .onPart ((h.ensures hsteady).mono ?_ ?_)
  · rintro snapshot lifecycle ⟨hlifecycle, hsnapshot⟩
    exact ⟨lifecycle, hlifecycle, hsnapshot, rfl⟩
  · rintro _ rfl
    rfl

theorem nextFailureSequence_ensures : Ensures nextFailureSequence control
    (fun sequence last => sequence = control.errors.lastSequence + 1 ∧ last = control)
    fun last => last = control :=
  .get (.check rfl fun _ => .ret ⟨rfl, rfl⟩)

theorem activeFailure_ensures (subsystem : EngineSubsystem) (sequence : Nat) (operation : String) :
    Ensures (activeFailure subsystem sequence operation) control
      (fun active last => control.errors.active subsystem = some active ∧
        active.sequence = sequence ∧ last = control) fun last => last = control := by
  refine .get ?_
  cases hactive : control.errors.active subsystem with
  | none => exact .raised rfl
  | some active =>
      exact .check rfl fun hsequence => .ret ⟨rfl, not_not.1 hsequence, rfl⟩

theorem validateRecoveryAction_ensures (operation : String) :
    Ensures (validateRecoveryAction action operation) control (fun _ last => last = control)
      fun last => last = control := by
  refine (activeFailure_ensures _ _ _).bind ?_
  rintro active _ ⟨-, -, rfl⟩
  exact .check rfl fun _ => .ret rfl

variable (hsteady : Steady control.lifecycle) (hroom : HasRoom control.lifecycle)
include hsteady hroom

theorem reportFailure_ensures (subsystem : EngineSubsystem) (operation : String) (error : Error) :
    Ensures (reportFailure subsystem operation error) control
      (fun _ last => Steady last.lifecycle) fun last => last = control := by
  refine .bind (.ofExcept rfl fun _ _ => rfl) ?_
  rintro label _ rfl
  refine .get (.check rfl fun _ => nextFailureSequence_ensures.bind ?_)
  rintro sequence _ ⟨-, rfl⟩
  refine .bind (.ofExcept rfl fun _ _ => rfl) ?_
  rintro diagnostic _ rfl
  refine (onLifecycle_ensures (reportRuntimeFailure_outcome hsteady hroom) hsteady).bind ?_
  rintro snapshot _ ⟨lifecycle, hlifecycle, -, rfl⟩
  exact .change (.ret hlifecycle)

/-- A recovery that begins is issued; one that does not leaves the failures as they were. -/
theorem beginRecovery_ensures (subsystem : EngineSubsystem) (sequence : Nat)
    (request : EngineRecoveryRequest) :
    Ensures (EngineErrorCoordinator.beginRecovery subsystem sequence request) control
      (fun start last => Steady last.lifecycle ∧ Issued last start.action)
      fun last => Steady last.lifecycle := by
  have hfault : ∀ last, last = control → Steady last.lifecycle := by
    rintro _ rfl
    exact hsteady
  refine ((activeFailure_ensures subsystem sequence _).mono (fun _ _ h => h) hfault).bind ?_
  rintro active _ ⟨hactive, hsequence, rfl⟩
  refine .check hsteady fun _ => .check hsteady fun hrequest => .check hsteady fun _ => ?_
  refine ((onLifecycle_ensures (beginRecovery_outcome hsteady hroom) hsteady).mono
    (fun _ _ h => h) hfault).bind ?_
  rintro snapshot _ ⟨lifecycle, hlifecycle, hsnapshot, rfl⟩
  unfold acceptRecovery
  cases hpending : snapshot.pendingAction with
  | none => exact .raised hlifecycle
  | some pending =>
      refine .check hlifecycle fun haction => .change (.ret ⟨hlifecycle, ?_, ?_, ?_⟩)
      · rw [hsnapshot, hlifecycle.latest] at hpending
        exact hpending
      · exact not_not.1 (not_or.1 haction).2
      · refine ⟨{ active with recoveryAttempts := active.recoveryAttempts + 1 }, ?_, rfl, rfl,
          not_not.1 hrequest⟩
        simp [EngineErrorState.setActive]

theorem completeRecovery_ensures (action : EngineRecoveryAction) :
    Ensures (EngineErrorCoordinator.completeRecovery action) control
      (fun _ last => Steady last.lifecycle) fun last => last = control := by
  refine (validateRecoveryAction_ensures _).bind ?_
  rintro active _ rfl
  refine .bind (.ofExcept rfl fun _ _ => rfl) ?_
  rintro diagnostic _ rfl
  refine (onLifecycle_ensures (call_outcome hsteady hroom (.completeAction _)) hsteady).bind ?_
  rintro snapshot _ ⟨lifecycle, hlifecycle, -, rfl⟩
  exact .change (.ret hlifecycle)

theorem failRecovery_ensures (action : EngineRecoveryAction) (error : Error) :
    Ensures (EngineErrorCoordinator.failRecovery action error) control
      (fun _ last => Steady last.lifecycle) fun last => last = control := by
  refine (validateRecoveryAction_ensures _).bind ?_
  rintro active _ rfl
  refine nextFailureSequence_ensures.bind ?_
  rintro sequence _ ⟨-, rfl⟩
  refine .bind (.ofExcept rfl fun _ _ => rfl) ?_
  rintro diagnostic _ rfl
  refine (onLifecycle_ensures (call_outcome hsteady hroom (.failAction _ _)) hsteady).bind ?_
  rintro snapshot _ ⟨lifecycle, hlifecycle, -, rfl⟩
  exact .change (.ret hlifecycle)

omit hsteady hroom

/-- No failure is reported while a recovery is under way. -/
theorem reportFailure_busy (hbusy : ¬ control.lifecycle.settled) (subsystem : EngineSubsystem)
    (operation : String) (error : Error) :
    Ensures (reportFailure subsystem operation error) control (fun _ _ => False)
      fun last => last = control := by
  refine .bind (.ofExcept rfl fun _ _ => rfl) ?_
  rintro label _ rfl
  refine .get (.check rfl fun _ => nextFailureSequence_ensures.bind ?_)
  rintro sequence _ ⟨-, rfl⟩
  refine .bind (.ofExcept rfl fun _ _ => rfl) ?_
  rintro diagnostic _ rfl
  exact .of_rejects (.bind (.onPart (.get (.fails hbusy)))) rfl

/-- No other recovery begins while one is under way. -/
theorem beginRecovery_busy (hbusy : ¬ control.lifecycle.settled) (subsystem : EngineSubsystem)
    (sequence : Nat) (request : EngineRecoveryRequest) :
    Ensures (EngineErrorCoordinator.beginRecovery subsystem sequence request) control
      (fun _ _ => False) fun last => last = control := by
  refine (activeFailure_ensures subsystem sequence _).bind ?_
  rintro active _ ⟨-, -, rfl⟩
  refine .check rfl fun _ => .check rfl fun _ => .check rfl fun _ => ?_
  exact .of_rejects (.bind (.onPart (.get (.fails (.inl hbusy))))) rfl

end Control

/-! ## Parts of the dispatcher -/

section Parts

variable {α : Type} {post : α → EngineCommandDispatcher owners → Prop}
variable {fault : EngineCommandDispatcher owners → Prop}

theorem setLifecycle_self {lifecycle : EngineOwnedState}
    (h : dispatcher.lifecycle = some lifecycle) :
    { dispatcher with lifecycle := some lifecycle } = dispatcher := by
  rw [← h]

theorem setControl_self {errors : EngineErrorState} {lifecycle : EngineOwnedState}
    (herrors : dispatcher.errors = some errors) (hlifecycle : dispatcher.lifecycle = some lifecycle) :
    { dispatcher with errors := some errors, lifecycle := some lifecycle } = dispatcher := by
  rw [← herrors, ← hlifecycle]

theorem onLifecyclePart_ensures {call : EngineM α} (hnone : fault dispatcher)
    (hsome : ∀ lifecycle, dispatcher.lifecycle = some lifecycle → Ensures call lifecycle
      (fun value last => post value { dispatcher with lifecycle := some last })
      fun last => fault { dispatcher with lifecycle := some last }) :
    Ensures (onLifecyclePart call) dispatcher post fault := by
  unfold Ensures onLifecyclePart
  cases hlifecycle : dispatcher.lifecycle with
  | none => exact hnone
  | some lifecycle =>
      have hcall := hsome lifecycle hlifecycle
      unfold Ensures at hcall
      cases hresult : call lifecycle <;> simpa only [hresult] using hcall

theorem onControl_ensures {call : ControlM α} (hnone : fault dispatcher)
    (hsome : ∀ errors lifecycle, dispatcher.errors = some errors →
      dispatcher.lifecycle = some lifecycle → Ensures call ⟨errors, lifecycle⟩
        (fun value last => post value { dispatcher with
          errors := some last.errors, lifecycle := some last.lifecycle })
        fun last => fault { dispatcher with
          errors := some last.errors, lifecycle := some last.lifecycle }) :
    Ensures (onControl call) dispatcher post fault := by
  unfold Ensures onControl
  cases herrors : dispatcher.errors with
  | none => exact hnone
  | some errors =>
      cases hlifecycle : dispatcher.lifecycle with
      | none => exact hnone
      | some lifecycle =>
          have hcall := hsome errors lifecycle herrors hlifecycle
          unfold Ensures at hcall
          cases hresult : call ⟨errors, lifecycle⟩ <;> simpa only [hresult] using hcall

theorem lifecycleSnapshot_ensures : Ensures lifecycleSnapshot dispatcher
    (fun snapshot last => last = dispatcher ∧
      ∃ lifecycle, dispatcher.lifecycle = some lifecycle ∧ snapshot = lifecycle.latest)
    fun last => last = dispatcher := by
  refine onLifecyclePart_ensures rfl fun lifecycle hlifecycle => .of_succeeds ?_
  refine (latest_spec lifecycle).mono ?_
  rintro snapshot lifecycle ⟨rfl, rfl⟩
  exact ⟨setLifecycle_self hlifecycle, lifecycle, hlifecycle, rfl⟩

theorem recoverySnapshot_ensures : Ensures recoverySnapshot dispatcher
    (fun _ last => last = dispatcher) fun last => last = dispatcher := by
  refine lifecycleSnapshot_ensures.bind ?_
  rintro snapshot dispatcher ⟨rfl, -⟩
  refine .through (fun _ last => last = dispatcher) (onControl_ensures rfl
    fun errors lifecycle herrors hlifecycle => .get (.ret ?_)) ?_
  · exact setControl_self herrors hlifecycle
  · rintro errors _ rfl
    exact .get (.ret rfl)

theorem nextSequence_ensures (current : Nat) (operation : String) :
    Ensures (nextSequence current operation) dispatcher (fun _ last => last = dispatcher)
      fun last => last = dispatcher :=
  .check rfl fun _ => .ret rfl

theorem nextSequence_keeps (h : fault dispatcher) (current : Nat) (operation : String) :
    Ensures (nextSequence current operation) dispatcher (fun _ last => last = dispatcher) fault :=
  (nextSequence_ensures current operation).same h

theorem recoverySnapshot_keeps (h : fault dispatcher) :
    Ensures recoverySnapshot dispatcher (fun _ => fault) fault := by
  refine recoverySnapshot_ensures.mono ?_ ?_
  · rintro _ _ rfl
    exact h
  · rintro _ rfl
    exact h

/-- A call of the coordinator that changes nothing when it fails. -/
theorem onControl_keeps {call : ControlM α} {post : α → EngineControl → Prop}
    (h : fault dispatcher) (hcall : ∀ errors lifecycle, dispatcher.errors = some errors →
      dispatcher.lifecycle = some lifecycle →
      Ensures call ⟨errors, lifecycle⟩ post fun last => last = ⟨errors, lifecycle⟩) :
    Ensures (onControl call) dispatcher
      (fun value last => ∃ control, post value control ∧ last = { dispatcher with
        errors := some control.errors, lifecycle := some control.lifecycle }) fault := by
  refine onControl_ensures h fun errors lifecycle herrors hlifecycle => ?_
  refine (hcall errors lifecycle herrors hlifecycle).mono ?_ ?_
  · intro value control hpost
    exact ⟨control, hpost, rfl⟩
  · rintro _ rfl
    rwa [setControl_self herrors hlifecycle]

theorem requireExportTeardownReady_keeps (h : fault dispatcher) (action : EngineLifecycleAction) :
    Ensures (requireExportTeardownReady action) dispatcher (fun _ last => last = dispatcher)
      fault := by
  unfold requireExportTeardownReady
  split
  · exact .ret rfl
  · refine .get (.through (fun _ last => last = dispatcher) (.ofExcept h fun _ _ => rfl) ?_)
    rintro final dispatcher rfl
    exact .check_last h fun _ => rfl

end Parts

/-! ## Keeping in step -/

/-- Whether a command begins a shutdown or a restart. -/
def EngineCommand.stops : EngineCommand owners → Bool
  | .beginShutdown | .beginRestart => true
  | _ => false

/-- The lifecycle is steady, and a pending recovery is in step with it. -/
structure Tracked (dispatcher : EngineCommandDispatcher owners) : Prop where
  steady : ∀ lifecycle, dispatcher.lifecycle = some lifecycle → Steady lifecycle
  issued : ∀ action, dispatcher.pendingRecovery = some action → ∃ errors lifecycle,
    dispatcher.errors = some errors ∧ dispatcher.lifecycle = some lifecycle ∧
      Issued ⟨errors, lifecycle⟩ action

/-- Room below the counters of the lifecycle for one more call. -/
def Roomy (dispatcher : EngineCommandDispatcher owners) : Prop :=
  ∀ lifecycle, dispatcher.lifecycle = some lifecycle → HasRoom lifecycle

theorem Tracked.of_same (h : Tracked dispatcher) (hlifecycle : last.lifecycle = dispatcher.lifecycle)
    (herrors : last.errors = dispatcher.errors)
    (hpending : last.pendingRecovery = dispatcher.pendingRecovery) : Tracked last := by
  refine ⟨?_, ?_⟩
  · rw [hlifecycle]
    exact h.steady
  · rw [hlifecycle, herrors, hpending]
    exact h.issued

/-- Without a pending recovery there is nothing to keep in step. -/
theorem Tracked.of_idle {lifecycle : EngineOwnedState} (hsteady : Steady lifecycle)
    (hlifecycle : last.lifecycle = some lifecycle) (hidle : last.pendingRecovery = none) :
    Tracked last := by
  refine ⟨fun other hother => ?_, fun action hpending => ?_⟩
  · rw [hlifecycle, Option.some.injEq] at hother
    rwa [← hother]
  · rw [hidle] at hpending
    cases hpending

/-- While a recovery is pending the lifecycle is recovering. -/
theorem Tracked.recovering {action : EngineRecoveryAction} {lifecycle : EngineOwnedState}
    (h : Tracked dispatcher) (hpending : dispatcher.pendingRecovery = some action)
    (hlifecycle : dispatcher.lifecycle = some lifecycle) :
    lifecycle.mode = .recovering ∧ lifecycle.phase = .running := by
  obtain ⟨errors, other, -, hother, hissued⟩ := h.issued action hpending
  rw [hlifecycle, Option.some.injEq] at hother
  subst hother
  exact hissued.recovering (h.steady _ hlifecycle)

section Keeps

variable (h : Tracked dispatcher) (hroom : Roomy dispatcher)
include h hroom

/-- A lifecycle call that a pending recovery excludes. -/
theorem onLifecyclePart_keeps {call : EngineM EngineLifecycleSnapshot}
    (houtcome : ∀ lifecycle, Steady lifecycle → HasRoom lifecycle → Outcome lifecycle call)
    (hbusy : ∀ action lifecycle, dispatcher.pendingRecovery = some action →
      dispatcher.lifecycle = some lifecycle → Rejects call lifecycle) :
    Ensures (onLifecyclePart call) dispatcher (fun _ => Tracked) Tracked := by
  refine onLifecyclePart_ensures h fun lifecycle hlifecycle => ?_
  have hsteady := h.steady lifecycle hlifecycle
  have hself : Tracked { dispatcher with lifecycle := some lifecycle } := by
    rwa [setLifecycle_self hlifecycle]
  rcases Option.eq_none_or_eq_some dispatcher.pendingRecovery with hidle | ⟨action, hpending⟩
  · refine ((houtcome lifecycle hsteady (hroom lifecycle hlifecycle)).ensures hsteady).mono ?_ ?_
    · rintro snapshot next ⟨hnext, -⟩
      exact .of_idle hnext rfl hidle
    · rintro _ rfl
      exact hself
  · exact .of_rejects (hbusy action lifecycle hpending hlifecycle) hself

theorem executeTransition_keeps {call : EngineM EngineLifecycleSnapshot}
    (houtcome : ∀ lifecycle, Steady lifecycle → HasRoom lifecycle → Outcome lifecycle call)
    (hbusy : ∀ action lifecycle, dispatcher.pendingRecovery = some action →
      dispatcher.lifecycle = some lifecycle → Rejects call lifecycle) :
    Ensures (executeTransition call) dispatcher (fun _ => Tracked) Tracked :=
  (onLifecyclePart_keeps h hroom houtcome hbusy).bind fun _ _ hlast => .ret hlast

omit hroom

/-- What excludes every call that would begin or report something. -/
theorem Tracked.busy {action : EngineRecoveryAction} {lifecycle : EngineOwnedState}
    (hpending : dispatcher.pendingRecovery = some action)
    (hlifecycle : dispatcher.lifecycle = some lifecycle) : ¬ lifecycle.settled :=
  not_settled_of_recovering (h.recovering hpending hlifecycle).1

include hroom

theorem completeClassifiedRecovery_keeps (action : EngineRecoveryAction) :
    Ensures (completeClassifiedRecovery action) dispatcher (fun _ => Tracked) Tracked := by
  refine .get ((nextSequence_keeps h _ _).bind ?_)
  rintro revision dispatcher rfl
  refine (onControl_keeps h fun errors lifecycle _ hlifecycle => completeRecovery_ensures
    (h.steady _ hlifecycle) (hroom _ hlifecycle) action).bind ?_
  rintro report _ ⟨control, hsteady, rfl⟩
  exact .change (recoverySnapshot_keeps (.of_idle hsteady rfl rfl))

theorem failClassifiedRecovery_keeps (action : EngineRecoveryAction)
    (failure : EngineReportedFailure) :
    Ensures (failClassifiedRecovery action failure) dispatcher (fun _ => Tracked) Tracked := by
  refine .get ((nextSequence_keeps h _ _).bind ?_)
  rintro revision dispatcher rfl
  refine (onControl_keeps h fun errors lifecycle _ hlifecycle => failRecovery_ensures
    (h.steady _ hlifecycle) (hroom _ hlifecycle) action _).bind ?_
  rintro report _ ⟨control, hsteady, rfl⟩
  exact .change (recoverySnapshot_keeps (.of_idle hsteady rfl rfl))

theorem reportClassifiedFailure_keeps (subsystem : EngineSubsystem) (operation : String)
    (failure : EngineReportedFailure) :
    Ensures (reportClassifiedFailure subsystem operation failure) dispatcher (fun _ => Tracked)
      Tracked := by
  refine .get ((nextSequence_keeps h _ _).bind ?_)
  rintro revision dispatcher rfl
  rcases Option.eq_none_or_eq_some dispatcher.pendingRecovery with hidle | ⟨action, hpending⟩
  · refine (onControl_keeps h fun errors lifecycle _ hlifecycle => reportFailure_ensures
      (h.steady _ hlifecycle) (hroom _ hlifecycle) subsystem operation _).bind ?_
    rintro report _ ⟨control, hsteady, rfl⟩
    exact .change (recoverySnapshot_keeps (.of_idle hsteady rfl hidle))
  · refine (onControl_keeps h fun errors lifecycle _ hlifecycle => reportFailure_busy
      (h.busy hpending hlifecycle) subsystem operation _).bind ?_
    rintro report _ ⟨control, hnone, -⟩
    cases hnone

/-- A recovery that begins is remembered under the action the lifecycle has issued for it. -/
theorem beginClassifiedRecovery_keeps (subsystem : EngineSubsystem) (sequence : Nat)
    (request : EngineRecoveryRequest) :
    Ensures (beginClassifiedRecovery subsystem sequence request) dispatcher (fun _ => Tracked)
      Tracked := by
  refine .get ((nextSequence_keeps h _ _).bind ?_)
  rintro revision dispatcher rfl
  rcases Option.eq_none_or_eq_some dispatcher.pendingRecovery with hidle | ⟨action, hpending⟩
  · refine .through (fun start last => ∃ control, Steady control.lifecycle ∧
      Issued control start.action ∧ last = { dispatcher with
        errors := some control.errors, lifecycle := some control.lifecycle })
      (onControl_ensures h fun errors lifecycle _ hlifecycle => (beginRecovery_ensures
        (h.steady _ hlifecycle) (hroom _ hlifecycle) subsystem sequence request).mono ?_ ?_) ?_
    · rintro start control ⟨hsteady, hissued⟩
      exact ⟨control, hsteady, hissued, rfl⟩
    · intro control hsteady
      exact .of_idle hsteady rfl hidle
    · rintro start _ ⟨control, hsteady, hissued, rfl⟩
      refine .change (recoverySnapshot_keeps ⟨?_, ?_⟩)
      · rintro _ ⟨⟩
        exact hsteady
      · rintro _ ⟨⟩
        exact ⟨control.errors, control.lifecycle, rfl, rfl, hissued⟩
  · refine (onControl_keeps h fun errors lifecycle _ hlifecycle => beginRecovery_busy
      (h.busy hpending hlifecycle) subsystem sequence request).bind ?_
    rintro report _ ⟨control, hnone, -⟩
    cases hnone

theorem beginLegacyRecovery_keeps (subsystem : EngineSubsystem) :
    Ensures (beginLegacyRecovery subsystem) dispatcher (fun _ => Tracked) Tracked := by
  refine .through (fun _ last => last = dispatcher) (onControl_ensures h
    fun errors lifecycle herrors hlifecycle => .get ?_) ?_
  · have hself := setControl_self herrors hlifecycle
    cases errors.active subsystem with
    | none => exact .raised (by rwa [hself])
    | some active => exact .ret hself
  · rintro active dispatcher rfl
    refine .through (fun _ last => last = dispatcher) (.ofExcept h fun _ _ => rfl) ?_
    rintro request dispatcher rfl
    exact beginClassifiedRecovery_keeps h hroom subsystem _ request

omit hroom

/-- A pending recovery is routed to exactly when the action is the one that is pending. -/
theorem routedRecovery_ensures (action : EngineLifecycleAction) :
    Ensures (routedRecovery action) dispatcher (fun recovery last => last = dispatcher ∧
      ∃ lifecycle, dispatcher.lifecycle = some lifecycle ∧ recovery =
        if lifecycle.currentAction = some action then dispatcher.pendingRecovery else none)
      fun last => last = dispatcher := by
  refine lifecycleSnapshot_ensures.bind ?_
  rintro snapshot dispatcher ⟨rfl, lifecycle, hlifecycle, rfl⟩
  refine .get (.ret ⟨rfl, lifecycle, hlifecycle, ?_⟩)
  rw [(h.steady lifecycle hlifecycle).latest]
  rfl

theorem routedRecovery_keeps (action : EngineLifecycleAction) :
    Ensures (routedRecovery action) dispatcher (fun recovery last => last = dispatcher ∧
      ∀ pending lifecycle, recovery = none → dispatcher.pendingRecovery = some pending →
        dispatcher.lifecycle = some lifecycle → lifecycle.currentAction ≠ some action)
      Tracked := by
  refine ((routedRecovery_ensures h action).same h).mono ?_ fun _ hlast => hlast
  rintro _ dispatcher ⟨rfl, lifecycle, hlifecycle, rfl⟩
  refine ⟨rfl, ?_⟩
  intro pending other hnone hpending hother hcurrent
  rw [hlifecycle, Option.some.injEq] at hother
  subst hother
  rw [if_pos hcurrent, hpending] at hnone
  cases hnone

include hroom

theorem completeRouted_keeps (action : EngineLifecycleAction)
    (recovery : Option EngineRecoveryAction)
    (hrouted : ∀ pending lifecycle, recovery = none → dispatcher.pendingRecovery = some pending →
      dispatcher.lifecycle = some lifecycle → lifecycle.currentAction ≠ some action) :
    Ensures (completeRouted action recovery) dispatcher (fun _ => Tracked) Tracked := by
  cases recovery with
  | some recovery =>
      exact (completeClassifiedRecovery_keeps h hroom recovery).bind fun _ _ hlast => .ret hlast
  | none =>
      refine (onLifecyclePart_keeps h hroom (fun _ hsteady hroom =>
        call_outcome hsteady hroom (.completeAction action)) ?_).bind fun _ _ hlast => .ret hlast
      intro pending lifecycle hpending hlifecycle
      exact completeAction_stale (hrouted pending lifecycle rfl hpending hlifecycle)

theorem failRouted_keeps (action : EngineLifecycleAction) (failure : EngineReportedFailure)
    (recovery : Option EngineRecoveryAction)
    (hrouted : ∀ pending lifecycle, recovery = none → dispatcher.pendingRecovery = some pending →
      dispatcher.lifecycle = some lifecycle → lifecycle.currentAction ≠ some action) :
    Ensures (failRouted action failure recovery) dispatcher (fun _ => Tracked) Tracked := by
  cases recovery with
  | some recovery =>
      exact (failClassifiedRecovery_keeps h hroom recovery failure).bind fun _ _ hlast => .ret hlast
  | none =>
      refine (onLifecyclePart_keeps h hroom (fun _ hsteady hroom =>
        call_outcome hsteady hroom (.failAction action failure.intoError)) ?_).bind
          fun _ _ hlast => .ret hlast
      intro pending lifecycle hpending hlifecycle
      exact failAction_stale (hrouted pending lifecycle rfl hpending hlifecycle)

omit hroom

theorem executeOther_keeps (command : owners.Command) (commandSequence : Nat) :
    Ensures (executeOther command commandSequence) dispatcher (fun _ => Tracked) Tracked := by
  refine .get (.bind (.onPart ?_) fun _ _ hlast => .ret hlast)
  have hkeep (others : owners.State) : Tracked { dispatcher with others } :=
    h.of_same rfl rfl rfl
  unfold Ensures
  cases owners.execute command (dispatcher.lifecycle.map (·.latest)) commandSequence
    dispatcher.others with
  | ok value last => exact hkeep last
  | error error last => exact hkeep last

include hroom

theorem executeCommand_keeps (command : EngineCommand owners) (commandSequence : Nat)
    (hstops : command.stops = true → dispatcher.pendingRecovery = none) :
    Ensures (executeCommand command commandSequence) dispatcher (fun _ => Tracked) Tracked := by
  have hsnapshot : Ensures lifecycleSnapshot dispatcher (fun _ => Tracked) Tracked := by
    refine lifecycleSnapshot_ensures.mono ?_ ?_
    · rintro _ _ ⟨rfl, -⟩
      exact h
    · rintro _ rfl
      exact h
  cases command with
  | others command => exact executeOther_keeps h command commandSequence
  | inspectLifecycle => exact hsnapshot.bind fun _ _ hlast => .ret hlast
  | inspectRecoveryState =>
      exact (recoverySnapshot_keeps h).bind fun _ _ hlast => .ret hlast
  | completeLifecycleAction action =>
      refine (requireExportTeardownReady_keeps h action).bind ?_
      rintro _ dispatcher rfl
      refine (routedRecovery_keeps h action).bind ?_
      rintro recovery dispatcher ⟨rfl, hrouted⟩
      exact completeRouted_keeps h hroom action recovery fun pending lifecycle hnone =>
        hrouted pending lifecycle hnone
  | failLifecycleAction action failure =>
      refine (routedRecovery_keeps h action).bind ?_
      rintro recovery dispatcher ⟨rfl, hrouted⟩
      exact failRouted_keeps h hroom action failure recovery fun pending lifecycle hnone =>
        hrouted pending lifecycle hnone
  | reportRuntimeFailure subsystem failure =>
      exact (reportClassifiedFailure_keeps h hroom subsystem _ failure).bind
        fun _ _ hlast => .ret hlast
  | reportClassifiedFailure subsystem operation failure =>
      exact (reportClassifiedFailure_keeps h hroom subsystem operation failure).bind
        fun _ _ hlast => .ret hlast
  | beginRecovery subsystem =>
      exact (beginLegacyRecovery_keeps h hroom subsystem).bind fun _ _ hlast => .ret hlast
  | beginClassifiedRecovery subsystem sequence request =>
      exact (beginClassifiedRecovery_keeps h hroom subsystem sequence request).bind
        fun _ _ hlast => .ret hlast
  | completeRecovery action =>
      exact (completeClassifiedRecovery_keeps h hroom action).bind fun _ _ hlast => .ret hlast
  | failRecovery action failure =>
      exact (failClassifiedRecovery_keeps h hroom action failure).bind fun _ _ hlast => .ret hlast
  | beginSleep =>
      exact executeTransition_keeps h hroom (fun _ => beginSleep_outcome)
        fun action lifecycle hpending hlifecycle =>
          beginSleep_busy (h.recovering hpending hlifecycle).1 (h.recovering hpending hlifecycle).2
  | beginWake =>
      exact executeTransition_keeps h hroom (fun _ => beginWake_outcome)
        fun action lifecycle hpending hlifecycle =>
          beginWake_busy (h.recovering hpending hlifecycle).1 (h.recovering hpending hlifecycle).2
  | beginShutdown =>
      -- the one request that would replace the pending action of a recovery
      refine executeTransition_keeps h hroom (fun _ hsteady hroom =>
        beginShutdownWith_outcome hsteady hroom false) ?_
      intro action lifecycle hpending
      rw [hstops rfl] at hpending
      cases hpending
  | beginRestart =>
      refine executeTransition_keeps h hroom (fun _ => beginRestart_outcome) ?_
      intro action lifecycle hpending
      rw [hstops rfl] at hpending
      cases hpending
  | admitWork work => exact hsnapshot.bind fun _ _ hlast => .ret hlast
  | validateWorkPermit permit => exact hsnapshot.bind fun _ _ hlast => .ret hlast
  | executePlayback command => exact .raised h

end Keeps

/-! ## Runs -/

/-- Only the playback part of the dispatcher has changed. -/
structure SameControl (dispatcher last : EngineCommandDispatcher owners) : Prop where
  lifecycle : last.lifecycle = dispatcher.lifecycle
  errors : last.errors = dispatcher.errors
  pendingRecovery : last.pendingRecovery = dispatcher.pendingRecovery

theorem SameControl.refl (dispatcher : EngineCommandDispatcher owners) :
    SameControl dispatcher dispatcher := ⟨rfl, rfl, rfl⟩

theorem takeCompletion_same (pending : PendingPlaybackCommand)
    (bridge : PlaybackCommandBridge owners) :
    Ensures (takeCompletion pending bridge) dispatcher (fun _ => SameControl dispatcher)
      (SameControl dispatcher) := by
  unfold takeCompletion
  cases bridge.completions with
  | nil => exact .check_last (.refl _) fun _ => .refl _
  | cons completion rest =>
      refine .change (.check ⟨rfl, rfl, rfl⟩ fun _ => .get (.check ⟨rfl, rfl, rfl⟩ fun _ => ?_))
      exact .put_last ⟨rfl, rfl, rfl⟩

theorem collectPlaybackCompletion_same :
    Ensures collectPlaybackCompletion dispatcher (fun _ => SameControl dispatcher)
      (SameControl dispatcher) := by
  refine .get ?_
  cases dispatcher.pendingPlayback with
  | none => exact .ret (.refl _)
  | some pending =>
      cases dispatcher.playbackBridge with
      | none => exact .raised (.refl _)
      | some bridge => exact takeCompletion_same pending bridge

theorem admitCommand_same (command : EngineCommand owners) :
    Ensures (admitCommand command) dispatcher (fun _ => SameControl dispatcher)
      (SameControl dispatcher) := by
  refine collectPlaybackCompletion_same.bind ?_
  intro _ mid hmid
  refine .get (.through (fun _ last => last = mid) (.ofExcept hmid fun _ _ => rfl) ?_)
  rintro emits mid rfl
  refine .check hmid fun _ => .through (fun _ last => last = mid)
    ((nextSequence_ensures _ _).mono (fun _ _ hsame => hsame) ?_) ?_
  · rintro _ rfl
    exact hmid
  rintro commandSequence mid rfl
  refine .through (fun _ last => last = mid) (.get ?_) ?_
  · split
    · refine .through (fun _ last => last = mid)
        ((nextSequence_ensures _ _).mono (fun _ _ hsame => hsame) ?_) ?_
      · rintro _ rfl
        exact hmid
      · rintro sequence mid rfl
        exact .check hmid fun _ => .ret rfl
    · exact .ret rfl
  · rintro eventSequence mid rfl
    exact .ret hmid

theorem enqueuePlaybackCommand_same (transactionId : EngineTransactionId)
    (commandSequence eventSequence : Nat) (command : owners.PlaybackCommand) :
    Ensures (enqueuePlaybackCommand transactionId commandSequence eventSequence command) dispatcher
      (fun _ => SameControl dispatcher) (SameControl dispatcher) := by
  refine .through (fun _ last => last = dispatcher) ?_ ?_
  · unfold playbackPermit
    split
    · exact .ret rfl
    · refine (lifecycleSnapshot_ensures.mono (fun _ _ h => h) ?_).bind ?_
      · rintro _ rfl
        exact .refl _
      · rintro snapshot dispatcher ⟨rfl, -⟩
        exact .check (.refl _) fun _ => .ret rfl
  · rintro permit dispatcher rfl
    refine .through (fun _ => SameControl dispatcher) (.get ?_) ?_
    · cases dispatcher.playbackBridge with
      | none => exact .raised (.refl _)
      | some bridge =>
          exact .check (.refl _) fun _ => .check (.refl _) fun _ => .put_last ⟨rfl, rfl, rfl⟩
    · intro _ last hsame
      exact .change (.ret ⟨hsame.lifecycle, hsame.errors, hsame.pendingRecovery⟩)

theorem Tracked.of_sameControl (h : Tracked dispatcher) (hsame : SameControl dispatcher last) :
    Tracked last :=
  h.of_same hsame.lifecycle hsame.errors hsame.pendingRecovery

theorem publishEvent_same (transactionId : EngineTransactionId) (commandSequence : Nat)
    (event : Option (EngineEvent owners)) (eventSequence : Option Nat) :
    Ensures (publishEvent transactionId commandSequence event eventSequence) dispatcher
      (fun _ => SameControl dispatcher) (SameControl dispatcher) := by
  cases event with
  | none => exact .ret (.refl _)
  | some event =>
      cases eventSequence with
      | none => exact .raised (.refl _)
      | some sequence => exact .change_last ⟨rfl, rfl, rfl⟩

/-- A dispatch preserves what its command preserves, if the playback part does not matter. -/
theorem dispatch_preserves {invariant : EngineCommandDispatcher owners → Prop}
    (hsame : ∀ dispatcher last, SameControl dispatcher last → invariant dispatcher → invariant last)
    (h : invariant dispatcher) (request : EngineCommandRequest owners)
    (hcommand : ∀ mid commandSequence, SameControl dispatcher mid → invariant mid →
      Ensures (executeCommand request.command commandSequence) mid (fun _ => invariant) invariant) :
    Ensures (dispatch request) dispatcher (fun _ => invariant) invariant := by
  refine .bind (.raising ((admitCommand_same request.command).mono (fun _ _ h => h)
    fun last hlast => hsame dispatcher last hlast h)) ?_
  rintro ⟨commandSequence, eventSequence⟩ mid hmid
  have hstart : invariant mid := hsame dispatcher mid hmid h
  have hdispatched : Ensures (dispatchCommand request.transactionId request.command commandSequence
      eventSequence) mid (fun _ => invariant) invariant := by
    apply (hcommand mid commandSequence hmid hstart).raising.bind
    intro execution last hlast
    refine .change (Ensures.bind ((publishEvent_same _ _ _ _).mono ?_ ?_) fun _ _ hfinal =>
      .ret hfinal)
    · exact fun _ final hfinal => hsame _ final hfinal (hsame last _ ⟨rfl, rfl, rfl⟩ hlast)
    · exact fun final hfinal => hsame _ final hfinal (hsame last _ ⟨rfl, rfl, rfl⟩ hlast)
  dsimp only
  split
  · cases eventSequence with
    | none => exact .raised hstart
    | some sequence =>
        exact .raising ((enqueuePlaybackCommand_same _ _ _ _).mono
          (fun _ last hlast => hsame mid last hlast hstart)
          fun last hlast => hsame mid last hlast hstart)
  · exact hdispatched

theorem Roomy.of_sameControl (h : Roomy dispatcher) (hsame : SameControl dispatcher last) :
    Roomy last := by
  intro lifecycle hlifecycle
  rw [hsame.lifecycle] at hlifecycle
  exact h lifecycle hlifecycle

theorem dispatch_keeps (h : Tracked dispatcher) (hroom : Roomy dispatcher)
    (request : EngineCommandRequest owners)
    (hstops : request.command.stops = true → dispatcher.pendingRecovery = none) :
    Ensures (dispatch request) dispatcher (fun _ => Tracked) Tracked := by
  refine dispatch_preserves (fun _ _ hsame hkept => hkept.of_sameControl hsame) h request ?_
  intro mid commandSequence hsame hmid
  rw [← hsame.pendingRecovery] at hstops
  exact executeCommand_keeps hmid (hroom.of_sameControl hsame) request.command commandSequence hstops

/-- What a call leaves, as far as it ensures it in either case. -/
theorem leftBy_of_ensures {ε α : Type} {call : EStateM ε (EngineCommandDispatcher owners) α}
    {invariant : EngineCommandDispatcher owners → Prop}
    (h : Ensures call dispatcher (fun _ => invariant) invariant) :
    invariant (EngineCommandDispatcher.leftBy (call dispatcher)) := by
  unfold Ensures at h
  unfold EngineCommandDispatcher.leftBy
  cases hcall : call dispatcher <;> simpa only [hcall] using h

/-- A step does not begin a shutdown or a restart while a recovery is pending, and there is room
below the counters of the lifecycle. -/
def Orderly (dispatcher : EngineCommandDispatcher owners) : EngineCall owners → Prop
  | .dispatch request => (request.command.stops = true → dispatcher.pendingRecovery = none) ∧
      Roomy dispatcher
  | _ => True

/-- Whether a call is a command. -/
def EngineCall.isDispatch : EngineCall owners → Bool
  | .dispatch _ => true
  | _ => false

/-- Only commands reach the lifecycle. -/
theorem after_same {call : EngineCall owners} (hcall : call.isDispatch = false) :
    SameControl dispatcher (dispatcher.after call) := by
  cases call with
  | dispatch request => cases hcall
  | drainEvents =>
      refine leftBy_of_ensures (collectPlaybackCompletion_same.bind ?_)
      intro _ mid hsame
      exact .get (.put (.ret ⟨hsame.lifecycle, hsame.errors, hsame.pendingRecovery⟩))
  | discardPlaybackEvents =>
      refine leftBy_of_ensures (collectPlaybackCompletion_same.bind ?_)
      intro _ mid hsame
      exact .get (.put (.ret ⟨hsame.lifecycle, hsame.errors, hsame.pendingRecovery⟩))
  | executePlayback snapshot failure => exact ⟨rfl, rfl, rfl⟩
  | dropExecutor => exact ⟨rfl, rfl, rfl⟩

theorem Tracked.after (h : Tracked dispatcher) {call : EngineCall owners}
    (horderly : Orderly dispatcher call) : Tracked (dispatcher.after call) := by
  cases hcall : call.isDispatch with
  | false => exact h.of_sameControl (after_same hcall)
  | true =>
      cases call with
      | dispatch request =>
          exact leftBy_of_ensures (dispatch_keeps h horderly.2 request horderly.1)
      | drainEvents | discardPlaybackEvents | executePlayback _ _ | dropExecutor => cases hcall

end Engine
end Superi

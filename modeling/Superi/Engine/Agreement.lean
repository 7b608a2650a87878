import Superi.Engine.DispatcherRuns
import Superi.Engine.Faults

/-!
# Agreement — the failures of the coordinator and the records of the lifecycle

The error coordinator and the lifecycle are two owners of the same facts.  As long as the failures
go through the coordinator and nothing puts a subsystem with a failure to sleep or tears it down,
they agree, a ready subsystem can report a failure and a degraded one can recover.  A failure that
survives a sleep or a restart blocks both.
-/

namespace Superi
namespace Engine

open Core Concurrency Stateful EngineOwnedState

variable {owners : OtherOwners}
variable {dispatcher last : EngineCommandDispatcher owners}

/-! ## The failures of the coordinator -/

/-- The active failures, one of which may be under recovery. -/
def EngineErrorState.faults (errors : EngineErrorState) (pending : Option EngineRecoveryAction) :
    Faults := fun subsystem =>
  (errors.active subsystem).map fun failure =>
    ⟨failure.disposition, decide (pending.map (·.subsystem) = some subsystem)⟩

/-- A token names the recovery that its lifecycle action was issued for; its fields are private. -/
def EngineRecoveryAction.Genuine (action : EngineRecoveryAction) : Prop :=
  action.lifecycleAction.kind = .recover ∧ action.lifecycleAction.subsystem = action.subsystem

section Control

variable {control : EngineControl} {errors : EngineErrorState} {subsystem : EngineSubsystem}

theorem faults_isSome (pending : Option EngineRecoveryAction) :
    (errors.faults pending subsystem).isSome = (errors.active subsystem).isSome :=
  Option.isSome_map

/-- Without active failures there is nothing to show. -/
theorem faults_eq_none (hactive : errors.active subsystem = none)
    (pending : Option EngineRecoveryAction) : errors.faults pending subsystem = none := by
  rw [EngineErrorState.faults, hactive]
  rfl

/-- The failures after those of one subsystem have been replaced, with nothing under recovery any
more. -/
theorem faults_setActive {pending : Option EngineRecoveryAction}
    (failure : Option EngineFailureRecord)
    (hpending : ∀ action, pending = some action → action.subsystem = subsystem) :
    (errors.setActive subsystem failure).faults none =
      Function.update (errors.faults pending) subsystem
        (failure.map fun failure => ⟨failure.disposition, false⟩) := by
  funext other
  simp only [EngineErrorState.faults, EngineErrorState.setActive, Function.update_apply]
  split
  · rfl
  · rename_i hother
    have hnot : pending.map (·.subsystem) ≠ some other := by
      intro hsame
      obtain ⟨action, hsome, rfl⟩ := Option.map_eq_some_iff.1 hsame
      exact hother (hpending action hsome)
    simp [hnot]

/-- The failures once the recovery of a subsystem has begun. -/
theorem faults_recovering {active : EngineFailureRecord} {action : EngineRecoveryAction}
    (hactive : errors.active subsystem = some active) (hsubsystem : action.subsystem = subsystem)
    (recoveryAttempts : Nat) :
    (errors.setActive subsystem (some { active with recoveryAttempts })).faults (some action) =
      Function.update (errors.faults none) subsystem
        ((errors.faults none subsystem).map fun fault => { fault with recovering := true }) := by
  funext other
  simp only [EngineErrorState.faults, EngineErrorState.setActive, Function.update_apply, hactive]
  split
  · rename_i hother
    simp [hsubsystem, hother]
  · rename_i hother
    have hnot : subsystem ≠ other := fun hsame => hother hsame.symm
    simp [hsubsystem, hnot]

/-- A lifecycle call of the coordinator leaves the failures alone. -/
theorem onLifecycle_shows {call : EngineM EngineLifecycleSnapshot}
    {post : EngineLifecycleSnapshot → EngineOwnedState → Prop}
    (hcall : Ensures call control.lifecycle post fun _ => True) :
    Ensures (onLifecycle call) control (fun snapshot last => ∃ lifecycle,
      post snapshot lifecycle ∧ last = { control with lifecycle }) fun _ => True :=
  .onPart (hcall.mono (fun _ lifecycle hpost => ⟨lifecycle, hpost, rfl⟩) fun _ _ => trivial)

/-- A failure that the coordinator keeps is shown once the record of its subsystem is. -/
theorem keepFailure_shows {pending : Option EngineRecoveryAction} {failure : EngineFailureRecord}
    (snapshot : EngineLifecycleSnapshot)
    (hpending : ∀ action, pending = some action → action.subsystem = failure.subsystem)
    (h : Shows (Function.update (control.errors.faults pending) failure.subsystem
      (some ⟨failure.disposition, false⟩)) control.lifecycle) :
    Ensures (keepFailure failure snapshot) control
      (fun _ last => Shows (last.errors.faults none) last.lifecycle) fun _ => True := by
  refine .change (.ret ?_)
  show Shows ((EngineErrorState.setActive { control.errors with lastSequence := failure.sequence }
    failure.subsystem (some failure)).faults none) control.lifecycle
  rw [faults_setActive (some failure) hpending]
  exact h

/-- A reported failure is shown by the record it leaves. -/
theorem reportFailure_shows (h : Shows (control.errors.faults none) control.lifecycle)
    (subsystem : EngineSubsystem) (operation : String) (error : Error) :
    Ensures (reportFailure subsystem operation error) control
      (fun _ last => Shows (last.errors.faults none) last.lifecycle) fun _ => True := by
  refine .bind (.ofExcept trivial fun _ _ => rfl) ?_
  rintro label _ rfl
  refine .get (.check trivial fun _ => .bind (nextFailureSequence_ensures.same trivial) ?_)
  rintro sequence _ ⟨-, rfl⟩
  refine .bind (.ofExcept trivial fun _ _ => rfl) ?_
  rintro diagnostic _ rfl
  apply (onLifecycle_shows (reportRuntimeFailure_shows h subsystem _)).bind
  rintro snapshot _ ⟨lifecycle, hlifecycle, rfl⟩
  have hpending : ∀ action, (none : Option EngineRecoveryAction) = some action →
    action.subsystem = subsystem := nofun
  exact keepFailure_shows snapshot hpending hlifecycle

/-- A recovery that begins is the one under recovery from then on. -/
theorem beginRecovery_agrees (hsteady : Steady control.lifecycle)
    (hroom : HasRoom control.lifecycle)
    (h : Shows (control.errors.faults none) control.lifecycle)
    (subsystem : EngineSubsystem) (sequence : Nat) (request : EngineRecoveryRequest) :
    Ensures (EngineErrorCoordinator.beginRecovery subsystem sequence request) control
      (fun start last => Shows (last.errors.faults (some start.action)) last.lifecycle ∧
        start.action.subsystem = subsystem)
      fun last => last = control := by
  refine (activeFailure_ensures subsystem sequence _).bind ?_
  rintro active control ⟨hactive, -, rfl⟩
  refine .check rfl fun _ => .check rfl fun _ => .check rfl fun _ => ?_
  have hbegins := (onLifecycle_ensures (beginRecovery_outcome hsteady hroom) hsteady).and
    (onLifecycle_shows (beginRecovery_shows h subsystem))
  refine (hbegins.mono (fun _ _ hpost => hpost) fun _ hfault => hfault.1).bind ?_
  rintro snapshot _ ⟨-, lifecycle, ⟨hlifecycle, action, hpending, haction⟩, rfl⟩
  unfold acceptRecovery
  rw [hpending]
  refine .of_succeeds (.passes (by simp [haction]) (.change (.ret ⟨?_, rfl⟩)))
  show Shows ((control.errors.setActive subsystem (some { active with
    recoveryAttempts := active.recoveryAttempts + 1 })).faults _) lifecycle
  rw [faults_recovering hactive rfl]
  exact hlifecycle

section Token

variable {pending : Option EngineRecoveryAction} {token : EngineRecoveryAction}
variable (h : Shows (control.errors.faults pending) control.lifecycle) (hgenuine : token.Genuine)
  (hpending : control.lifecycle.currentAction = some token.lifecycleAction →
    ∀ action, pending = some action → action.subsystem = token.subsystem)
include h hgenuine hpending

/-- A recovery that completes takes its failure away. -/
theorem completeRecovery_shows :
    Ensures (EngineErrorCoordinator.completeRecovery token) control
      (fun _ last => Shows (last.errors.faults none) last.lifecycle) fun _ => True := by
  refine .bind ((validateRecoveryAction_ensures _).same trivial) ?_
  rintro active control rfl
  refine .bind (.ofExcept trivial fun _ _ => rfl) ?_
  rintro diagnostic control rfl
  by_cases hcurrent : control.lifecycle.currentAction = some token.lifecycleAction
  · apply (onLifecycle_shows (completeAction_recovers hgenuine.1 h)).bind
    rintro snapshot _ ⟨lifecycle, hlifecycle, rfl⟩
    refine .change (.ret ?_)
    show Shows ((control.errors.setActive token.subsystem none).faults none) lifecycle
    rw [faults_setActive none (hpending hcurrent), ← hgenuine.2]
    exact hlifecycle
  · exact .of_rejects (.bind (.onPart (completeAction_stale hcurrent))) trivial

/-- A recovery that fails leaves a new failure in place of its own. -/
theorem failRecovery_shows (error : Error) :
    Ensures (EngineErrorCoordinator.failRecovery token error) control
      (fun _ last => Shows (last.errors.faults none) last.lifecycle) fun _ => True := by
  refine .bind ((validateRecoveryAction_ensures _).same trivial) ?_
  rintro active control rfl
  refine .bind (nextFailureSequence_ensures.same trivial) ?_
  rintro sequence control ⟨-, rfl⟩
  refine .bind (.ofExcept trivial fun _ _ => rfl) ?_
  rintro diagnostic control rfl
  by_cases hcurrent : control.lifecycle.currentAction = some token.lifecycleAction
  · apply (onLifecycle_shows (failAction_recovers hgenuine.1 h _)).bind
    rintro snapshot _ ⟨lifecycle, hlifecycle, rfl⟩
    apply keepFailure_shows snapshot (hpending hcurrent)
    rw [hgenuine.2] at hlifecycle
    exact hlifecycle
  · exact .of_rejects (.bind (.onPart (failAction_stale hcurrent))) trivial

end Token

end Control

/-! ## Keeping the two in agreement -/

/-- The records show the failures of the coordinator. -/
def Showing (dispatcher : EngineCommandDispatcher owners) : Prop :=
  ∀ errors lifecycle, dispatcher.errors = some errors → dispatcher.lifecycle = some lifecycle →
    Shows (errors.faults dispatcher.pendingRecovery) lifecycle

theorem Showing.of_sameControl (h : Showing dispatcher) (hsame : SameControl dispatcher last) :
    Showing last := by
  intro errors lifecycle herrors hlifecycle
  rw [hsame.errors] at herrors
  rw [hsame.lifecycle] at hlifecycle
  rw [hsame.pendingRecovery]
  exact h errors lifecycle herrors hlifecycle

theorem showing_of_control {errors : EngineErrorState} {lifecycle : EngineOwnedState}
    (h : Shows (errors.faults last.pendingRecovery) lifecycle)
    (herrors : last.errors = some errors) (hlifecycle : last.lifecycle = some lifecycle) :
    Showing last := by
  intro other next hother hnext
  rw [herrors, Option.some.injEq] at hother
  rw [hlifecycle, Option.some.injEq] at hnext
  rwa [← hother, ← hnext]

/-- A command that keeps the failures out of the hands of everything but a recovery: it fails no
action but a recovery, uses a token as it was issued, puts no subsystem with a failure to sleep, and
begins no shutdown or restart while a failure is active. -/
def EngineCommand.spares (dispatcher : EngineCommandDispatcher owners) :
    EngineCommand owners → Prop
  | .failLifecycleAction action _ => ∀ lifecycle, dispatcher.lifecycle = some lifecycle →
      lifecycle.currentAction = some action → action.kind = .recover
  | .completeRecovery token | .failRecovery token _ => token.Genuine
  | .beginSleep | .beginWake => ∀ errors lifecycle, dispatcher.errors = some errors →
      dispatcher.lifecycle = some lifecycle → lifecycle.mode = .running →
        ∀ subsystem : EngineSubsystem, subsystem.participatesInSleep = true →
          errors.active subsystem = none
  | .beginShutdown | .beginRestart => ∀ errors, dispatcher.errors = some errors →
      ∀ subsystem, errors.active subsystem = none
  | _ => True

/-- A step of a run whose failures are spared, with room below the counters of the lifecycle. -/
def Sparing (dispatcher : EngineCommandDispatcher owners) : EngineCall owners → Prop
  | .dispatch request => request.command.spares dispatcher ∧ Roomy dispatcher
  | _ => True

theorem executeOther_same (command : owners.Command) (commandSequence : Nat) :
    Ensures (executeOther command commandSequence) dispatcher (fun _ => SameControl dispatcher)
      (SameControl dispatcher) := by
  refine .get (.bind (.onPart ?_) fun _ _ hlast => .ret hlast)
  unfold Ensures
  cases owners.execute command (dispatcher.lifecycle.map (·.latest)) commandSequence
    dispatcher.others with
  | ok value last => exact ⟨rfl, rfl, rfl⟩
  | error error last => exact ⟨rfl, rfl, rfl⟩

section Keeps

variable (h : Tracked dispatcher) (hshowing : Showing dispatcher)
include h hshowing

/-- A pending recovery of the lifecycle is the one the dispatcher remembers. -/
theorem exists_pendingRecovery {errors : EngineErrorState} {lifecycle : EngineOwnedState}
    {action : EngineLifecycleAction} (herrors : dispatcher.errors = some errors)
    (hlifecycle : dispatcher.lifecycle = some lifecycle)
    (hcurrent : lifecycle.currentAction = some action) (hkind : action.kind = .recover) :
    ∃ token, dispatcher.pendingRecovery = some token ∧ token.subsystem = action.subsystem := by
  have hshows := hshowing errors lifecycle herrors hlifecycle
  have hstate : (lifecycle.records action.subsystem).state = .recovering := by
    rcases hshows.touched (h.steady lifecycle hlifecycle).sound hcurrent with ⟨-, hstate⟩ | ⟨hnot, -⟩
    · exact hstate
    · exact absurd hkind hnot
  have hmatches := hshows.records action.subsystem
  cases hfault : errors.faults dispatcher.pendingRecovery action.subsystem with
  | none =>
      rw [hfault] at hmatches
      have hsilent := hmatches.1
      rw [hstate] at hsilent
      cases hsilent
  | some fault =>
      rw [hfault] at hmatches
      have hrecovering := hmatches.2.1.1 hstate
      obtain ⟨failure, -, rfl⟩ := Option.map_eq_some_iff.1 hfault
      exact Option.map_eq_some_iff.1 (of_decide_eq_true hrecovering)

/-- The remembered token is genuine. -/
theorem genuine_of_pending {token : EngineRecoveryAction}
    (hpending : dispatcher.pendingRecovery = some token) : token.Genuine := by
  obtain ⟨errors, lifecycle, herrors, hlifecycle, hissued⟩ := h.issued token hpending
  obtain ⟨other, hother, hsubsystem⟩ :=
    exists_pendingRecovery h hshowing herrors hlifecycle hissued.pending hissued.kind
  rw [hpending, Option.some.injEq] at hother
  subst hother
  exact ⟨hissued.kind, hsubsystem.symm⟩

/-- Every genuine token of the pending action is for the subsystem under recovery. -/
theorem subsystem_of_pending {token : EngineRecoveryAction} {errors : EngineErrorState}
    {lifecycle : EngineOwnedState} (hgenuine : token.Genuine)
    (herrors : dispatcher.errors = some errors) (hlifecycle : dispatcher.lifecycle = some lifecycle)
    (hcurrent : lifecycle.currentAction = some token.lifecycleAction) (action : EngineRecoveryAction)
    (hpending : dispatcher.pendingRecovery = some action) : action.subsystem = token.subsystem := by
  obtain ⟨other, hother, hsubsystem⟩ :=
    exists_pendingRecovery h hshowing herrors hlifecycle hcurrent hgenuine.1
  rw [hpending, Option.some.injEq] at hother
  rw [hother, hsubsystem, hgenuine.2]

variable (hroom : Roomy dispatcher)
include hroom

/-- A lifecycle call that leaves the failures as they are shown. -/
theorem onLifecyclePart_shows {call : EngineM EngineLifecycleSnapshot}
    (houtcome : ∀ lifecycle, Steady lifecycle → HasRoom lifecycle → Outcome lifecycle call)
    (hcall : ∀ errors lifecycle, dispatcher.errors = some errors →
      dispatcher.lifecycle = some lifecycle →
      Ensures call lifecycle (fun _ => Shows (errors.faults dispatcher.pendingRecovery))
        fun _ => True) :
    Ensures (onLifecyclePart call) dispatcher (fun _ => Showing) Showing := by
  refine onLifecyclePart_ensures hshowing fun lifecycle hlifecycle => ?_
  have hsteady := h.steady lifecycle hlifecycle
  have houtcome := (houtcome lifecycle hsteady (hroom lifecycle hlifecycle)).ensures hsteady
  rcases Option.eq_none_or_eq_some dispatcher.errors with herrors | ⟨errors, herrors⟩
  · apply houtcome.mono
    · intro snapshot next _ errors other hother
      cases herrors.symm.trans hother
    · intro next _ errors other hother
      cases herrors.symm.trans hother
  · apply (houtcome.and (hcall errors lifecycle herrors hlifecycle)).mono
    · rintro snapshot next ⟨-, hnext⟩
      exact showing_of_control hnext herrors rfl
    · rintro _ ⟨rfl, -⟩
      rwa [setLifecycle_self hlifecycle]

theorem completeClassifiedRecovery_shows {token : EngineRecoveryAction} (hgenuine : token.Genuine) :
    Ensures (completeClassifiedRecovery token) dispatcher (fun _ => Showing) Showing := by
  refine .get ((nextSequence_keeps hshowing _ _).bind ?_)
  rintro revision dispatcher rfl
  refine (onControl_keeps hshowing fun errors lifecycle herrors hlifecycle => Ensures.mono
    ((completeRecovery_ensures (h.steady _ hlifecycle) (hroom _ hlifecycle) token).and
      (completeRecovery_shows (hshowing _ _ herrors hlifecycle) hgenuine
        (subsystem_of_pending h hshowing hgenuine herrors hlifecycle)))
    (fun _ _ hpost => hpost.2) fun _ hfault => hfault.1).bind ?_
  rintro report _ ⟨control, hshows, rfl⟩
  exact .change (recoverySnapshot_keeps (showing_of_control hshows rfl rfl))

theorem failClassifiedRecovery_shows {token : EngineRecoveryAction} (hgenuine : token.Genuine)
    (failure : EngineReportedFailure) :
    Ensures (failClassifiedRecovery token failure) dispatcher (fun _ => Showing) Showing := by
  refine .get ((nextSequence_keeps hshowing _ _).bind ?_)
  rintro revision dispatcher rfl
  refine (onControl_keeps hshowing fun errors lifecycle herrors hlifecycle => Ensures.mono
    ((failRecovery_ensures (h.steady _ hlifecycle) (hroom _ hlifecycle) token _).and
      (failRecovery_shows (hshowing _ _ herrors hlifecycle) hgenuine
        (subsystem_of_pending h hshowing hgenuine herrors hlifecycle) _))
    (fun _ _ hpost => hpost.2) fun _ hfault => hfault.1).bind ?_
  rintro report _ ⟨control, hshows, rfl⟩
  exact .change (recoverySnapshot_keeps (showing_of_control hshows rfl rfl))

theorem reportClassifiedFailure_shows (subsystem : EngineSubsystem) (operation : String)
    (failure : EngineReportedFailure) :
    Ensures (reportClassifiedFailure subsystem operation failure) dispatcher (fun _ => Showing)
      Showing := by
  refine .get ((nextSequence_keeps hshowing _ _).bind ?_)
  rintro revision dispatcher rfl
  rcases Option.eq_none_or_eq_some dispatcher.pendingRecovery with hidle | ⟨action, hpending⟩
  · refine (onControl_keeps hshowing fun errors lifecycle herrors hlifecycle => Ensures.mono
      ((reportFailure_ensures (h.steady _ hlifecycle) (hroom _ hlifecycle) subsystem operation _).and
        (reportFailure_shows (hidle ▸ hshowing _ _ herrors hlifecycle) subsystem operation _))
      (fun _ _ hpost => hpost.2) fun _ hfault => hfault.1).bind ?_
    rintro report _ ⟨control, hshows, rfl⟩
    refine .change (recoverySnapshot_keeps (showing_of_control ?_ rfl rfl))
    rw [← hidle] at hshows
    exact hshows
  · refine (onControl_keeps hshowing fun errors lifecycle _ hlifecycle => reportFailure_busy
      (h.busy hpending hlifecycle) subsystem operation _).bind ?_
    rintro report _ ⟨control, hnone, -⟩
    cases hnone

theorem beginClassifiedRecovery_shows (subsystem : EngineSubsystem) (sequence : Nat)
    (request : EngineRecoveryRequest) :
    Ensures (beginClassifiedRecovery subsystem sequence request) dispatcher (fun _ => Showing)
      Showing := by
  refine .get ((nextSequence_keeps hshowing _ _).bind ?_)
  rintro revision dispatcher rfl
  rcases Option.eq_none_or_eq_some dispatcher.pendingRecovery with hidle | ⟨action, hpending⟩
  · refine (onControl_keeps hshowing fun errors lifecycle herrors hlifecycle =>
      beginRecovery_agrees (h.steady _ hlifecycle) (hroom _ hlifecycle)
        (hidle ▸ hshowing _ _ herrors hlifecycle) subsystem sequence request).bind ?_
    rintro start _ ⟨control, ⟨hshows, -⟩, rfl⟩
    exact .change (recoverySnapshot_keeps (showing_of_control hshows rfl rfl))
  · refine (onControl_keeps hshowing fun errors lifecycle _ hlifecycle => beginRecovery_busy
      (h.busy hpending hlifecycle) subsystem sequence request).bind ?_
    rintro report _ ⟨control, hnone, -⟩
    cases hnone

theorem beginLegacyRecovery_shows (subsystem : EngineSubsystem) :
    Ensures (beginLegacyRecovery subsystem) dispatcher (fun _ => Showing) Showing := by
  refine .through (fun _ last => last = dispatcher) (onControl_ensures hshowing
    fun errors lifecycle herrors hlifecycle => .get ?_) ?_
  · have hself := setControl_self herrors hlifecycle
    cases errors.active subsystem with
    | none => exact .raised (by rwa [hself])
    | some active => exact .ret hself
  · rintro active dispatcher rfl
    refine .through (fun _ last => last = dispatcher) (.ofExcept hshowing fun _ _ => rfl) ?_
    rintro request dispatcher rfl
    exact beginClassifiedRecovery_shows h hshowing hroom subsystem _ request

section Routed

variable {lifecycle : EngineOwnedState} (hlifecycle : dispatcher.lifecycle = some lifecycle)
variable {action : EngineLifecycleAction}
include hlifecycle

theorem completeRouted_shows : Ensures (completeRouted action
      (if lifecycle.currentAction = some action then dispatcher.pendingRecovery else none)) dispatcher
    (fun _ => Showing) Showing := by
  have hcall : dispatcher.pendingRecovery = none ∨ lifecycle.currentAction ≠ some action →
      Ensures (completeRouted action none) dispatcher (fun _ => Showing) Showing := by
    intro hfree
    refine (onLifecyclePart_shows h hshowing hroom (fun _ hsteady hroom =>
      call_outcome hsteady hroom (.completeAction action)) ?_).bind fun _ _ hlast => .ret hlast
    intro errors other herrors hother
    rw [hlifecycle, Option.some.injEq] at hother
    subst hother
    by_cases hcurrent : lifecycle.currentAction = some action
    · refine completeAction_shows (hshowing errors lifecycle herrors hlifecycle)
        (h.steady lifecycle hlifecycle).sound fun hkind => ?_
      obtain ⟨token, hpending, -⟩ :=
        exists_pendingRecovery h hshowing herrors hlifecycle hcurrent hkind
      rcases hfree with hnone | hother
      · cases hnone.symm.trans hpending
      · exact hother hcurrent
    · exact .of_rejects (completeAction_stale hcurrent) trivial
  split
  · rcases Option.eq_none_or_eq_some dispatcher.pendingRecovery with hnone | ⟨token, hpending⟩
    · rw [hnone]
      exact hcall (.inl hnone)
    · rw [hpending]
      exact (completeClassifiedRecovery_shows h hshowing hroom
        (genuine_of_pending h hshowing hpending)).bind fun _ _ hlast => .ret hlast
  · exact hcall (.inr ‹_›)

theorem failRouted_shows (failure : EngineReportedFailure)
    (hspares : lifecycle.currentAction = some action → action.kind = .recover) :
    Ensures (failRouted action failure
      (if lifecycle.currentAction = some action then dispatcher.pendingRecovery else none)) dispatcher
    (fun _ => Showing) Showing := by
  have hcall : dispatcher.pendingRecovery = none ∨ lifecycle.currentAction ≠ some action →
      Ensures (failRouted action failure none) dispatcher (fun _ => Showing) Showing := by
    intro hfree
    refine (onLifecyclePart_shows h hshowing hroom (fun _ hsteady hroom =>
      call_outcome hsteady hroom (.failAction action failure.intoError)) ?_).bind
        fun _ _ hlast => .ret hlast
    intro errors other herrors hother
    rw [hlifecycle, Option.some.injEq] at hother
    subst hother
    refine .of_rejects (failAction_stale fun hcurrent => ?_) trivial
    obtain ⟨token, hpending, -⟩ :=
      exists_pendingRecovery h hshowing herrors hlifecycle hcurrent (hspares hcurrent)
    rcases hfree with hnone | hother
    · cases hnone.symm.trans hpending
    · exact hother hcurrent
  split
  · rcases Option.eq_none_or_eq_some dispatcher.pendingRecovery with hnone | ⟨token, hpending⟩
    · rw [hnone]
      exact hcall (.inl hnone)
    · rw [hpending]
      exact (failClassifiedRecovery_shows h hshowing hroom
        (genuine_of_pending h hshowing hpending) failure).bind fun _ _ hlast => .ret hlast
  · exact hcall (.inr ‹_›)

end Routed

/-- A request of the lifecycle that finds the failures spared. -/
theorem executeTransition_shows {call : EngineM EngineLifecycleSnapshot}
    (houtcome : ∀ lifecycle, Steady lifecycle → HasRoom lifecycle → Outcome lifecycle call)
    (hcall : ∀ errors lifecycle, dispatcher.errors = some errors →
      dispatcher.lifecycle = some lifecycle → Sound lifecycle →
      Shows (errors.faults dispatcher.pendingRecovery) lifecycle →
      Ensures call lifecycle (fun _ => Shows (errors.faults dispatcher.pendingRecovery))
        fun _ => True) :
    Ensures (executeTransition call) dispatcher (fun _ => Showing) Showing := by
  refine (onLifecyclePart_shows h hshowing hroom houtcome ?_).bind fun _ _ hlast => .ret hlast
  intro errors lifecycle herrors hlifecycle
  exact hcall errors lifecycle herrors hlifecycle (h.steady lifecycle hlifecycle).sound
    (hshowing errors lifecycle herrors hlifecycle)

theorem executeCommand_shows (command : EngineCommand owners) (commandSequence : Nat)
    (hspares : command.spares dispatcher) :
    Ensures (executeCommand command commandSequence) dispatcher (fun _ => Showing) Showing := by
  have hsnapshot : Ensures lifecycleSnapshot dispatcher (fun _ => Showing) Showing := by
    refine lifecycleSnapshot_ensures.mono ?_ ?_
    · rintro _ _ ⟨rfl, -⟩
      exact hshowing
    · rintro _ rfl
      exact hshowing
  cases command with
  | others command =>
      exact (executeOther_same command commandSequence).mono (fun _ _ => hshowing.of_sameControl)
        fun _ => hshowing.of_sameControl
  | inspectLifecycle => exact hsnapshot.bind fun _ _ hlast => .ret hlast
  | inspectRecoveryState =>
      exact (recoverySnapshot_keeps hshowing).bind fun _ _ hlast => .ret hlast
  | completeLifecycleAction action =>
      refine (requireExportTeardownReady_keeps hshowing action).bind ?_
      rintro _ dispatcher rfl
      apply ((routedRecovery_ensures h action).same hshowing).bind
      rintro _ dispatcher ⟨rfl, lifecycle, hlifecycle, rfl⟩
      exact completeRouted_shows h hshowing hroom hlifecycle
  | failLifecycleAction action failure =>
      apply ((routedRecovery_ensures h action).same hshowing).bind
      rintro _ dispatcher ⟨rfl, lifecycle, hlifecycle, rfl⟩
      exact failRouted_shows h hshowing hroom hlifecycle failure (hspares lifecycle hlifecycle)
  | reportRuntimeFailure subsystem failure =>
      exact (reportClassifiedFailure_shows h hshowing hroom subsystem _ failure).bind
        fun _ _ hlast => .ret hlast
  | reportClassifiedFailure subsystem operation failure =>
      exact (reportClassifiedFailure_shows h hshowing hroom subsystem operation failure).bind
        fun _ _ hlast => .ret hlast
  | beginRecovery subsystem =>
      exact (beginLegacyRecovery_shows h hshowing hroom subsystem).bind fun _ _ hlast => .ret hlast
  | beginClassifiedRecovery subsystem sequence request =>
      exact (beginClassifiedRecovery_shows h hshowing hroom subsystem sequence request).bind
        fun _ _ hlast => .ret hlast
  | completeRecovery token =>
      exact (completeClassifiedRecovery_shows h hshowing hroom hspares).bind
        fun _ _ hlast => .ret hlast
  | failRecovery token failure =>
      exact (failClassifiedRecovery_shows h hshowing hroom hspares failure).bind
        fun _ _ hlast => .ret hlast
  | beginSleep =>
      refine executeTransition_shows h hshowing hroom (fun _ => beginSleep_outcome) ?_
      intro errors lifecycle herrors hlifecycle hsound hshows
      apply beginSleep_shows hshows hsound
      intro hmode subsystem hsubsystem
      exact faults_eq_none (hspares errors lifecycle herrors hlifecycle hmode subsystem hsubsystem) _
  | beginWake =>
      refine executeTransition_shows h hshowing hroom (fun _ => beginWake_outcome) ?_
      intro errors lifecycle herrors hlifecycle hsound hshows
      apply beginWake_shows hshows hsound
      intro hmode subsystem hsubsystem
      exact faults_eq_none (hspares errors lifecycle herrors hlifecycle hmode subsystem hsubsystem) _
  | beginShutdown =>
      refine executeTransition_shows h hshowing hroom (fun _ hsteady hroom =>
        beginShutdownWith_outcome hsteady hroom false) ?_
      intro errors lifecycle herrors hlifecycle hsound hshows
      exact beginShutdownWith_shows hshows hsound
        (fun subsystem => faults_eq_none (hspares errors herrors subsystem) _) false
  | beginRestart =>
      refine executeTransition_shows h hshowing hroom (fun _ => beginRestart_outcome) ?_
      intro errors lifecycle herrors hlifecycle hsound hshows
      exact beginRestart_shows hshows hsound
        (fun subsystem => faults_eq_none (hspares errors herrors subsystem) _)
  | admitWork work => exact hsnapshot.bind fun _ _ hlast => .ret hlast
  | validateWorkPermit permit => exact hsnapshot.bind fun _ _ hlast => .ret hlast
  | executePlayback command => exact .raised hshowing

end Keeps

/-! ## Runs -/

/-- What a command spares depends on the failures and the lifecycle alone. -/
theorem spares_of_sameControl {command : EngineCommand owners} (hspares : command.spares dispatcher)
    (hsame : SameControl dispatcher last) : command.spares last := by
  unfold EngineCommand.spares at hspares ⊢
  rw [hsame.errors, hsame.lifecycle]
  exact hspares

/-- A command that stops the engine finds no recovery pending. -/
theorem pendingRecovery_of_spares {command : EngineCommand owners} (h : Tracked dispatcher)
    (hspares : command.spares dispatcher) (hstops : command.stops = true) :
    dispatcher.pendingRecovery = none := by
  rcases Option.eq_none_or_eq_some dispatcher.pendingRecovery with hnone | ⟨token, hpending⟩
  · exact hnone
  · obtain ⟨errors, lifecycle, herrors, hlifecycle, hissued⟩ := h.issued token hpending
    obtain ⟨active, hactive, -⟩ := hissued.active
    have hidle : errors.active token.subsystem = none := by
      cases command with
      | beginShutdown | beginRestart => exact hspares errors herrors token.subsystem
      | _ => cases hstops
    cases hidle.symm.trans hactive

/-- The lifecycle, the coordinator and the pending recovery fit together. -/
structure Consistent (dispatcher : EngineCommandDispatcher owners) : Prop where
  tracked : Tracked dispatcher
  showing : Showing dispatcher

theorem Consistent.of_sameControl (h : Consistent dispatcher) (hsame : SameControl dispatcher last) :
    Consistent last :=
  ⟨h.tracked.of_sameControl hsame, h.showing.of_sameControl hsame⟩

/-- The step: a call that spares the failures keeps the records in agreement with them. -/
theorem Consistent.after (h : Consistent dispatcher) {call : EngineCall owners}
    (hsparing : Sparing dispatcher call) : Consistent (dispatcher.after call) := by
  cases hcall : call.isDispatch with
  | false => exact h.of_sameControl (after_same hcall)
  | true =>
      cases call with
      | drainEvents | discardPlaybackEvents | executePlayback _ _ | dropExecutor => cases hcall
      | dispatch request =>
          obtain ⟨hspares, hroom⟩ := hsparing
          have hstops := pendingRecovery_of_spares h.tracked hspares
          refine leftBy_of_ensures (dispatch_preserves
            (fun _ _ hsame hboth => Consistent.of_sameControl hboth hsame) h request ?_)
          rintro mid commandSequence hsame ⟨hmid, hshows⟩
          rw [← hsame.pendingRecovery] at hstops
          have hroom := hroom.of_sameControl hsame
          apply ((executeCommand_keeps hmid hroom request.command commandSequence hstops).and
            (executeCommand_shows hmid hshows hroom request.command commandSequence
              (spares_of_sameControl hspares hsame))).mono
          · rintro _ last ⟨htracked, hshowing⟩
            exact ⟨htracked, hshowing⟩
          · rintro last ⟨htracked, hshowing⟩
            exact ⟨htracked, hshowing⟩

/-! ## What agreement is good for -/

section Control

variable {control : EngineControl} {subsystem : EngineSubsystem}
variable (hsteady : Steady control.lifecycle) (hroom : HasRoom control.lifecycle)
  (hsettled : control.lifecycle.settled)
include hsteady hroom hsettled

/-- Without an active failure the failure of a ready subsystem is accepted. -/
theorem reportFailure_spec {operation label : String} (error : Error)
    (hlabel : validateOperation operation = .ok label)
    (hactive : control.errors.active subsystem = none)
    (hsequence : control.errors.lastSequence < maxCounter)
    (hserves : control.lifecycle.serves subsystem = true) :
    Succeeds (reportFailure subsystem operation error) control
      fun _ last => (last.errors.active subsystem).isSome = true := by
  refine .through (fun _ last => last = control) (.ofExcept hlabel rfl) ?_
  rintro _ control rfl
  refine .get (.passes (by simp [hactive]) (.through (fun _ last => last = control)
    (.get (.passes (Nat.not_le.2 hsequence) (.ret rfl))) ?_))
  rintro sequence control rfl
  obtain ⟨event, hevent⟩ := exists_failureEvent
    (error.withContext ⟨"superi-engine.error", "propagate_failure"⟩) subsystem _ sequence 0
    (.fromRecoverability error.recoverability)
  refine .through (fun _ last => last = control) (.ofExcept hevent rfl) ?_
  rintro diagnostic control rfl
  obtain ⟨howned, hready⟩ := serves_iff.1 hserves
  refine Succeeds.bind (reportRuntimeFailure_spec hsteady hroom hsettled
    (by simp [howned, hready])).onPart ?_
  rintro snapshot _ ⟨lifecycle, -, rfl⟩
  refine .change (.ret ?_)
  simp [EngineErrorState.setActive, EngineErrorState.pushHistory]

/-- The recovery from the failure of a degraded subsystem begins. -/
theorem beginRecovery_accepted {active : EngineFailureRecord} {request : EngineRecoveryRequest}
    (hshows : Shows (control.errors.faults none) control.lifecycle)
    (hactive : control.errors.active subsystem = some active)
    (hrequest : active.disposition.recoveryRequest = some request)
    (hattempts : active.recoveryAttempts < maxRecoveryAttempts)
    (hdegraded : (control.lifecycle.records subsystem).state = .degraded)
    (hserve : control.lifecycle.dependenciesServe subsystem = true) :
    Succeeds (EngineErrorCoordinator.beginRecovery subsystem active.sequence request) control
      fun start _ => start.action.subsystem = subsystem := by
  refine .through (fun found last => found = active ∧ last = control) (.get ?_) ?_
  · rw [hactive]
    exact .passes (not_not_intro rfl) (.ret ⟨rfl, rfl⟩)
  rintro found control ⟨rfl, rfl⟩
  have hterminal : found.disposition ≠ .restartRequired := by
    intro hterminal
    rw [hterminal] at hrequest
    cases hrequest
  refine .passes hterminal (.passes (not_not_intro hrequest) (.passes (Nat.not_le.2 hattempts) ?_))
  have hfirst : ¬ (¬ control.lifecycle.settled ∨
      (control.lifecycle.records subsystem).state ≠ .degraded) := by
    simp [hsettled, hdegraded]
  have hbegins := (beginRecovery_spec hsteady hroom hfirst hserve).ensuring
    (beginRecovery_shows hshows subsystem)
  refine Succeeds.bind hbegins.onPart ?_
  rintro snapshot _ ⟨lifecycle, ⟨-, -, action, hpending, hsubsystem, hkind⟩, rfl⟩
  unfold acceptRecovery
  rw [hpending]
  exact .passes (by simp [hsubsystem, hkind]) (.change (.ret rfl))

end Control

section Dispatch

variable {errors : EngineErrorState} {lifecycle : EngineOwnedState} {subsystem : EngineSubsystem}

/-- The coordinator holds the failure of a subsystem exactly when the lifecycle shows one. -/
def FailuresShown (dispatcher : EngineCommandDispatcher owners) : Prop :=
  ∀ errors lifecycle subsystem, dispatcher.errors = some errors →
    dispatcher.lifecycle = some lifecycle → ((errors.active subsystem).isSome = true ↔
      (lifecycle.records subsystem).state.showsFailure = true)

/-- Whenever the engine runs with nothing under way, a ready subsystem can report a failure. -/
def Reports (dispatcher : EngineCommandDispatcher owners) : Prop :=
  ∀ transactionId errors lifecycle subsystem failure, dispatcher.errors = some errors →
    dispatcher.lifecycle = some lifecycle → lifecycle.settled → lifecycle.serves subsystem = true →
      Succeeds (dispatch ⟨transactionId, .reportRuntimeFailure subsystem failure⟩) dispatcher
        fun _ last => ∃ errors, last.errors = some errors ∧
          (errors.active subsystem).isSome = true

/-- Whenever the engine runs with nothing under way, a degraded subsystem whose dependencies are
ready can begin to recover, up to the bound on its attempts. -/
def Recovers (dispatcher : EngineCommandDispatcher owners) : Prop :=
  ∀ transactionId errors lifecycle subsystem, dispatcher.errors = some errors →
    dispatcher.lifecycle = some lifecycle → lifecycle.settled →
      (lifecycle.records subsystem).state = .degraded →
      lifecycle.dependenciesServe subsystem = true →
      (∀ active, errors.active subsystem = some active →
        active.recoveryAttempts < maxRecoveryAttempts) →
      Succeeds (dispatch ⟨transactionId, .beginRecovery subsystem⟩) dispatcher
        fun _ last => ∃ token, last.pendingRecovery = some token ∧ token.subsystem = subsystem

/-- The coordinator and the lifecycle agree, and neither stands in the way of the other. -/
structure Agrees (dispatcher : EngineCommandDispatcher owners) : Prop where
  shown : FailuresShown dispatcher
  reports : Receptive dispatcher → Reports dispatcher
  recovers : Receptive dispatcher → Recovers dispatcher

variable (h : Tracked dispatcher) (hshowing : Showing dispatcher)
include h hshowing

omit h in
theorem Showing.shown : FailuresShown dispatcher := by
  intro errors lifecycle subsystem herrors hlifecycle
  have hmatches := (hshowing errors lifecycle herrors hlifecycle).records subsystem
  rw [← faults_isSome dispatcher.pendingRecovery]
  cases hfault : errors.faults dispatcher.pendingRecovery subsystem with
  | none =>
      rw [hfault] at hmatches
      simp [hmatches.1]
  | some fault =>
      rw [hfault] at hmatches
      simp [hmatches.1]

omit hshowing in
/-- An engine that has nothing under way has no recovery pending. -/
theorem pendingRecovery_of_settled (hlifecycle : dispatcher.lifecycle = some lifecycle)
    (hsettled : lifecycle.settled) : dispatcher.pendingRecovery = none := by
  rcases Option.eq_none_or_eq_some dispatcher.pendingRecovery with hnone | ⟨token, hpending⟩
  · exact hnone
  · exact absurd hsettled (h.busy hpending hlifecycle)

theorem reports_of_showing (hready : Receptive dispatcher) : Reports dispatcher := by
  intro transactionId errors lifecycle subsystem failure herrors hlifecycle hsettled hserves
  have hactive : errors.active subsystem = none := by
    rw [← Option.not_isSome_iff_eq_none, hshowing.shown errors lifecycle subsystem herrors hlifecycle,
      (serves_iff.1 hserves).2]
    decide
  have hlabel : validateOperation "runtime_failure" = .ok "runtime_failure" := by decide +kernel
  refine .bind (admitCommand_spec hready rfl).raising ?_
  rintro ⟨commandSequence, eventSequence⟩ dispatcher ⟨hsome, rfl⟩
  obtain ⟨sequence, rfl⟩ := Option.isSome_iff_exists.1 hsome
  refine dispatchCommand_spec transactionId (.through (fun _ last => ∃ errors,
    last.errors = some errors ∧ (errors.active subsystem).isSome = true) ?_ ?_) ?_
  · refine .get ((nextSequence_spec _ hready.recoveryStateRevision).bind ?_)
    rintro revision dispatcher rfl
    refine (onControl_spec herrors hlifecycle (reportFailure_spec (h.steady _ hlifecycle)
      (hready.roomy _ hlifecycle) hsettled _ hlabel hactive (hready.lastSequence _ herrors)
      hserves)).bind ?_
    rintro report _ ⟨control, hkept, rfl⟩
    refine .change ((recoverySnapshot_spec rfl rfl).mono ?_)
    rintro state _ rfl
    exact ⟨control.errors, rfl, hkept⟩
  · exact fun state last hlast => .ret ⟨rfl, hlast⟩
  · rintro mid last hsame ⟨errors, herrors, hkept⟩
    exact ⟨errors, hsame.errors.trans herrors, hkept⟩

theorem recovers_of_showing (hready : Receptive dispatcher) : Recovers dispatcher := by
  intro transactionId errors lifecycle subsystem herrors hlifecycle hsettled hdegraded hserve
    hattempts
  have hshows := hshowing errors lifecycle herrors hlifecycle
  rw [pendingRecovery_of_settled h hlifecycle hsettled] at hshows
  -- a degraded subsystem has an active failure, which is not terminal
  obtain ⟨active, hactive⟩ : ∃ active, errors.active subsystem = some active := by
    rw [← Option.isSome_iff_exists, hshowing.shown errors lifecycle subsystem herrors hlifecycle,
      hdegraded]
    rfl
  obtain ⟨request, hrequest⟩ : ∃ request, active.disposition.recoveryRequest = some request := by
    have hmatches := hshows.records subsystem
    simp only [EngineErrorState.faults, hactive, Option.map_some] at hmatches
    have hterminal := hmatches.2.2
    rw [hdegraded] at hterminal
    cases hdisposition : active.disposition with
    | restartRequired => cases hterminal hdisposition
    | retryAvailable | continueDegraded | userCorrectionRequired => exact ⟨_, rfl⟩
  refine .bind (admitCommand_spec hready rfl).raising ?_
  rintro ⟨commandSequence, eventSequence⟩ dispatcher ⟨hsome, rfl⟩
  obtain ⟨sequence, rfl⟩ := Option.isSome_iff_exists.1 hsome
  refine dispatchCommand_spec transactionId (.through (fun _ last => ∃ token,
    last.pendingRecovery = some token ∧ token.subsystem = subsystem) ?_ ?_) ?_
  · refine .through (fun found last => found = active ∧ last = dispatcher) ?_ ?_
    · have hread : Succeeds (legacyFailure subsystem) ⟨errors, lifecycle⟩
          fun found last => found = active ∧ last = ⟨errors, lifecycle⟩ := by
        refine .get ?_
        simp only [hactive]
        exact .ret ⟨rfl, rfl⟩
      refine (onControl_spec herrors hlifecycle hread).mono ?_
      rintro found _ ⟨control, ⟨rfl, rfl⟩, rfl⟩
      exact ⟨rfl, setControl_self herrors hlifecycle⟩
    rintro found dispatcher ⟨rfl, rfl⟩
    have hplain : legacyRequest found = .ok request := by
      rw [legacyRequest, hrequest]
    refine .through (fun chosen last => chosen = request ∧ last = dispatcher)
      (.ofExcept hplain ⟨rfl, rfl⟩) ?_
    rintro chosen dispatcher ⟨rfl, rfl⟩
    refine .get ((nextSequence_spec _ hready.recoveryStateRevision).bind ?_)
    rintro revision dispatcher rfl
    refine (onControl_spec herrors hlifecycle (beginRecovery_accepted (h.steady _ hlifecycle)
      (hready.roomy _ hlifecycle) hsettled hshows hactive hrequest (hattempts found hactive)
      hdegraded hserve)).bind ?_
    rintro start _ ⟨control, hsubsystem, rfl⟩
    refine .change ((recoverySnapshot_spec rfl rfl).mono ?_)
    rintro state _ rfl
    exact ⟨start.action, rfl, hsubsystem⟩
  · exact fun state last hlast => .ret ⟨rfl, hlast⟩
  · rintro mid last hsame ⟨token, hpending, hsubsystem⟩
    exact ⟨token, hsame.pendingRecovery.trans hpending, hsubsystem⟩

end Dispatch

/-- A new lifetime begins without failures. -/
theorem new_showing {others : owners.State} {bridged : Bool}
    {start : EngineCommandDispatcher owners}
    (hnew : EngineCommandDispatcher.new owners others bridged = .ok start) : Showing start := by
  have hcall : Ensures (scheduleNextInitialization >>= fun _ => publish) .new
      (fun _ => Shows fun _ => none) fun _ => True :=
    published_shows (scheduleNextInitialization_shows (.of_none (fun _ => rfl)
      fun _ => matches_offline) rfl)
  unfold EngineCommandDispatcher.new at hnew
  cases hlifecycle : EngineLifecycle.new with
  | error error =>
      rw [hlifecycle] at hnew
      cases hnew
  | ok lifecycle =>
      rw [hlifecycle] at hnew
      cases hnew
      unfold EngineLifecycle.new at hlifecycle
      unfold Ensures at hcall
      split at hlifecycle
      · rename_i snapshot owned hrun
        rw [Except.ok.injEq] at hlifecycle
        simp only [hrun, hlifecycle] at hcall
        have hshows : Shows ((EngineErrorState.new defaultErrorHistoryCapacity).faults none)
          lifecycle := hcall
        exact showing_of_control hshows rfl rfl
      · cases hlifecycle

/-- In a run that spares the failures, the coordinator and the lifecycle agree. -/
theorem failures_agree {others : owners.State} {bridged : Bool}
    {start last : EngineCommandDispatcher owners} {calls : List (EngineCall owners)}
    (hstart : EngineCommandDispatcher.new owners others bridged = .ok start)
    (hrun : Machine.run dispatcherStep start calls = some last)
    (hsparing : Machine.EveryStep dispatcherStep Sparing start calls) : Agrees last := by
  have hinit : Consistent start := ⟨new_tracked hstart, new_showing hstart⟩
  have hlast : Consistent last := by
    refine Machine.invariant_of_run ?_ hinit hrun hsparing
    intro state next call hstate hcall hstep
    rw [← Option.some.inj hstep]
    exact hstate.after hcall
  obtain ⟨htracked, hshowing⟩ := hlast
  exact ⟨hshowing.shown, reports_of_showing htracked hshowing,
    recovers_of_showing htracked hshowing⟩

/-- All six subsystems become ready. -/
def initialized : List (EngineCall noOthers) :=
  [commanded (.completeLifecycleAction ⟨.sharedState, .initializes, 1, 1⟩),
    commanded (.completeLifecycleAction ⟨.projects, .initializes, 1, 2⟩),
    commanded (.completeLifecycleAction ⟨.devices, .initializes, 1, 3⟩),
    commanded (.completeLifecycleAction ⟨.playback, .initializes, 1, 4⟩),
    commanded (.completeLifecycleAction ⟨.rendering, .initializes, 1, 5⟩),
    commanded (.completeLifecycleAction ⟨.exports, .initializes, 1, 6⟩)]

/-- Whether the coordinator holds a failure of a subsystem, and what the lifecycle shows of it. -/
def heldAndShown (dispatcher : EngineCommandDispatcher noOthers) (subsystem : EngineSubsystem) :
    Option (Bool × EngineSubsystemState) :=
  match dispatcher.errors, dispatcher.lifecycle with
  | some errors, some lifecycle =>
      some ((errors.active subsystem).isSome, (lifecycle.records subsystem).state)
  | _, _ => none

/-- The engine is initialized and the playback fails. -/
def failedPlayback : List (EngineCall noOthers) :=
  initialized ++ [commanded (.reportRuntimeFailure .playback ⟨.unavailable, .retryable,
    "device lost", []⟩)]

theorem failures_agree_failed :
    Machine.run dispatcherStep freshDispatcher failedPlayback = some (reachedBy failedPlayback) ∧
      heldAndShown (reachedBy failedPlayback) .playback = some (true, .degraded) ∧
      Agrees (reachedBy failedPlayback) := by
  have hstart : EngineCommandDispatcher.new noOthers () false = .ok freshDispatcher := rfl
  have hrun : Machine.run dispatcherStep freshDispatcher failedPlayback =
    some (reachedBy failedPlayback) := run_reachedBy failedPlayback
  have hsparing : Machine.EveryStep dispatcherStep Sparing freshDispatcher failedPlayback :=
    .cons ⟨trivial, by decide +kernel⟩ rfl (.cons ⟨trivial, by decide +kernel⟩ rfl
      (.cons ⟨trivial, by decide +kernel⟩ rfl (.cons ⟨trivial, by decide +kernel⟩ rfl
        (.cons ⟨trivial, by decide +kernel⟩ rfl (.cons ⟨trivial, by decide +kernel⟩ rfl
          (.cons ⟨trivial, by decide +kernel⟩ rfl .nil))))))
  exact ⟨hrun, by decide +kernel, failures_agree hstart hrun hsparing⟩

/-! ## Failures that get lost, and failures that stay -/

/-- The engine goes to sleep and begins to wake, up to the last subsystem. -/
def sleptAndWoken : List (EngineCall noOthers) :=
  [commanded .beginSleep,
    commanded (.completeLifecycleAction ⟨.exports, .prepareSleep, 1, 7⟩),
    commanded (.completeLifecycleAction ⟨.rendering, .prepareSleep, 1, 8⟩),
    commanded (.completeLifecycleAction ⟨.playback, .prepareSleep, 1, 9⟩),
    commanded (.completeLifecycleAction ⟨.devices, .prepareSleep, 1, 10⟩),
    commanded (.completeLifecycleAction ⟨.projects, .prepareSleep, 1, 11⟩),
    commanded .beginWake,
    commanded (.completeLifecycleAction ⟨.projects, .wake, 1, 12⟩),
    commanded (.completeLifecycleAction ⟨.devices, .wake, 1, 13⟩),
    commanded (.completeLifecycleAction ⟨.playback, .wake, 1, 14⟩),
    commanded (.completeLifecycleAction ⟨.rendering, .wake, 1, 15⟩)]

/-- The playback fails before the engine sleeps; it wakes up ready, with the failure still active.
-/
def failedBeforeSleep : List (EngineCall noOthers) :=
  initialized ++ [commanded (.reportRuntimeFailure .playback ⟨.unavailable, .retryable,
    "device lost", []⟩)] ++ sleptAndWoken ++
    [commanded (.completeLifecycleAction ⟨.exports, .wake, 1, 16⟩)]

/-- The export subsystem fails to wake, which leaves it degraded without an active failure. -/
def failedToWake : List (EngineCall noOthers) :=
  initialized ++ sleptAndWoken ++
    [commanded (.failLifecycleAction ⟨.exports, .wake, 1, 16⟩ ⟨.unavailable, .degraded,
      "encoder lost", []⟩)]

theorem lastSequence_lt {dispatcher : EngineCommandDispatcher noOthers}
    (h : dispatcher.errors.all (fun errors => decide (errors.lastSequence < maxCounter)) = true)
    (errors : EngineErrorState) (herrors : dispatcher.errors = some errors) :
    errors.lastSequence < maxCounter := by
  rw [herrors] at h
  exact of_decide_eq_true h

/-- Whether a subsystem can be worked with: the engine has nothing under way, the subsystem owns its
resources, and its dependencies are ready. -/
def workable (dispatcher : EngineCommandDispatcher noOthers) (subsystem : EngineSubsystem) : Bool :=
  dispatcher.lifecycle.any fun lifecycle => decide lifecycle.settled &&
    (lifecycle.records subsystem).ownsResources && lifecycle.dependenciesServe subsystem

/-- Whether a command is accepted. -/
def accepts (dispatcher : EngineCommandDispatcher noOthers) (command : EngineCommand noOthers) :
    Bool :=
  match dispatch ⟨⟨"command"⟩, command⟩ dispatcher with
  | .ok _ _ => true
  | .error _ _ => false

theorem exists_of_heldAndShown {dispatcher : EngineCommandDispatcher noOthers}
    {subsystem : EngineSubsystem} {held : Bool} {state : EngineSubsystemState}
    (h : heldAndShown dispatcher subsystem = some (held, state))
    (hworkable : workable dispatcher subsystem = true) : ∃ errors lifecycle,
      dispatcher.errors = some errors ∧ dispatcher.lifecycle = some lifecycle ∧
        (errors.active subsystem).isSome = held ∧
        (lifecycle.records subsystem).state = state ∧ lifecycle.settled ∧
        (lifecycle.records subsystem).ownsResources = true ∧
        lifecycle.dependenciesServe subsystem = true := by
  unfold heldAndShown at h
  split at h
  · rename_i errors lifecycle herrors hlifecycle
    cases h
    simp only [workable, hlifecycle, Option.any_some, Bool.and_eq_true, decide_eq_true_eq] at hworkable
    obtain ⟨⟨hsettled, howned⟩, hserve⟩ := hworkable
    exact ⟨errors, lifecycle, herrors, hlifecycle, rfl, rfl, hsettled, howned, hserve⟩
  · cases h

/-- A failure outlives the sleep that made its subsystem ready again, and blocks the next failure; a
failed wake leaves a degraded subsystem that cannot recover. -/
theorem failures_survive_and_vanish :
    (Machine.run dispatcherStep freshDispatcher failedBeforeSleep =
        some (reachedBy failedBeforeSleep) ∧
      Receptive (reachedBy failedBeforeSleep) ∧
      ¬ FailuresShown (reachedBy failedBeforeSleep) ∧ ¬ Reports (reachedBy failedBeforeSleep)) ∧
    (Machine.run dispatcherStep freshDispatcher failedToWake = some (reachedBy failedToWake) ∧
      Receptive (reachedBy failedToWake) ∧
      ¬ FailuresShown (reachedBy failedToWake) ∧ ¬ Recovers (reachedBy failedToWake)) := by
  refine ⟨⟨run_reachedBy failedBeforeSleep, ?_, ?_⟩, run_reachedBy failedToWake, ?_, ?_⟩
  · exact ⟨by decide +kernel, by decide +kernel, by decide +kernel, by decide +kernel,
      by decide +kernel, by decide +kernel, lastSequence_lt (by decide +kernel)⟩
  · have hheld : heldAndShown (reachedBy failedBeforeSleep) .playback = some (true, .ready) := by
      decide +kernel
    have hworkable : workable (reachedBy failedBeforeSleep) .playback = true := by decide +kernel
    have hrefused : accepts (reachedBy failedBeforeSleep)
      (.reportRuntimeFailure .playback ⟨.unavailable, .retryable, "again", []⟩) = false := by
        decide +kernel
    obtain ⟨errors, lifecycle, herrors, hlifecycle, hactive, hready, hsettled, howned, -⟩ :=
      exists_of_heldAndShown hheld hworkable
    refine ⟨fun hshown => ?_, fun hreports => ?_⟩
    · have hshows := (hshown errors lifecycle .playback herrors hlifecycle).1 hactive
      rw [hready] at hshows
      cases hshows
    · obtain ⟨outcome, last, hcall, -⟩ := hreports ⟨"command"⟩ errors lifecycle .playback
        ⟨.unavailable, .retryable, "again", []⟩ herrors hlifecycle hsettled
        (serves_iff.2 ⟨howned, hready⟩)
      rw [accepts, hcall] at hrefused
      cases hrefused
  · exact ⟨by decide +kernel, by decide +kernel, by decide +kernel, by decide +kernel,
      by decide +kernel, by decide +kernel, lastSequence_lt (by decide +kernel)⟩
  · have hheld : heldAndShown (reachedBy failedToWake) .exports = some (false, .degraded) := by
      decide +kernel
    have hworkable : workable (reachedBy failedToWake) .exports = true := by decide +kernel
    have hrefused : accepts (reachedBy failedToWake) (.beginRecovery .exports) = false := by
      decide +kernel
    obtain ⟨errors, lifecycle, herrors, hlifecycle, hactive, hdegraded, hsettled, -, hserve⟩ :=
      exists_of_heldAndShown hheld hworkable
    refine ⟨fun hshown => ?_, fun hrecovers => ?_⟩
    · have hshows := (hshown errors lifecycle .exports herrors hlifecycle).2 (by rw [hdegraded]; rfl)
      rw [hactive] at hshows
      cases hshows
    · obtain ⟨outcome, last, hcall, -⟩ := hrecovers ⟨"command"⟩ errors lifecycle .exports herrors
        hlifecycle hsettled hdegraded hserve fun active hsome => by
          rw [hsome] at hactive
          cases hactive
      rw [accepts, hcall] at hrefused
      cases hrefused

end Engine
end Superi

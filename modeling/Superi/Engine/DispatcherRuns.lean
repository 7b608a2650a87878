import Superi.Engine.DispatcherLaws
import Superi.Engine.Teardown

/-!
# DispatcherRuns — finishing the pending action through the dispatcher

In an orderly run the pending action of the lifecycle can always be finished by the command that
names it, whether a recovery is behind it or not, and a shutdown in which nothing fails comes to its
end.
-/

namespace Superi
namespace Engine

open Core Concurrency Stateful EngineOwnedState

variable {owners : OtherOwners}
variable {dispatcher last : EngineCommandDispatcher owners}

/-! ## Finishing an action -/

/-- What the dispatcher needs to finish an action: no playback command under way, a free event slot,
final export jobs, and room below every counter. -/
structure Ready (dispatcher : EngineCommandDispatcher owners) : Prop where
  playback : dispatcher.pendingPlayback = none
  slot : dispatcher.events.length < maxPendingEngineEvents
  jobs : owners.logicalJobsFinal dispatcher.others = .ok true
  roomy : Roomy dispatcher
  commandSequence : dispatcher.commandSequence < maxCounter
  eventSequence : dispatcher.eventSequence < maxCounter
  recoveryStateRevision : dispatcher.recoveryStateRevision < maxCounter
  lastSequence : ∀ errors, dispatcher.errors = some errors → errors.lastSequence < maxCounter

/-- What the dispatcher needs to accept a command that announces an event. -/
structure Receptive (dispatcher : EngineCommandDispatcher owners) : Prop where
  playback : dispatcher.pendingPlayback = none
  slot : dispatcher.events.length < maxPendingEngineEvents
  roomy : Roomy dispatcher
  commandSequence : dispatcher.commandSequence < maxCounter
  eventSequence : dispatcher.eventSequence < maxCounter
  recoveryStateRevision : dispatcher.recoveryStateRevision < maxCounter
  lastSequence : ∀ errors, dispatcher.errors = some errors → errors.lastSequence < maxCounter

theorem Ready.receptive (h : Ready dispatcher) : Receptive dispatcher :=
  ⟨h.playback, h.slot, h.roomy, h.commandSequence, h.eventSequence, h.recoveryStateRevision,
    h.lastSequence⟩

section Parts

variable {α : Type} {post : α → EngineOwnedState → Prop}
variable {lifecycle : EngineOwnedState} {errors : EngineErrorState}

theorem onLifecyclePart_spec {call : EngineM α} (hlifecycle : dispatcher.lifecycle = some lifecycle)
    (hcall : Succeeds call lifecycle post) :
    Succeeds (onLifecyclePart call) dispatcher fun value last => ∃ next, post value next ∧
      last = { dispatcher with lifecycle := some next } := by
  obtain ⟨value, next, hresult, hpost⟩ := hcall
  exact ⟨value, { dispatcher with lifecycle := some next },
    by simp only [onLifecyclePart, hlifecycle, hresult], next, hpost, rfl⟩

theorem onControl_spec {call : ControlM α} {post : α → EngineControl → Prop}
    (herrors : dispatcher.errors = some errors) (hlifecycle : dispatcher.lifecycle = some lifecycle)
    (hcall : Succeeds call ⟨errors, lifecycle⟩ post) :
    Succeeds (onControl call) dispatcher fun value last => ∃ control, post value control ∧
      last = { dispatcher with
        errors := some control.errors, lifecycle := some control.lifecycle } := by
  obtain ⟨value, control, hresult, hpost⟩ := hcall
  exact ⟨value, { dispatcher with
      errors := some control.errors, lifecycle := some control.lifecycle },
    by simp only [onControl, herrors, hlifecycle, hresult], control, hpost, rfl⟩

theorem lifecycleSnapshot_spec (hlifecycle : dispatcher.lifecycle = some lifecycle) :
    Succeeds lifecycleSnapshot dispatcher fun snapshot last =>
      snapshot = lifecycle.latest ∧ last = dispatcher := by
  refine (onLifecyclePart_spec hlifecycle (latest_spec lifecycle)).mono ?_
  rintro snapshot _ ⟨next, ⟨rfl, rfl⟩, rfl⟩
  exact ⟨rfl, setLifecycle_self hlifecycle⟩

theorem recoverySnapshot_spec (herrors : dispatcher.errors = some errors)
    (hlifecycle : dispatcher.lifecycle = some lifecycle) :
    Succeeds recoverySnapshot dispatcher fun _ last => last = dispatcher := by
  refine (lifecycleSnapshot_spec hlifecycle).bind ?_
  rintro snapshot dispatcher ⟨rfl, rfl⟩
  have hread : Succeeds errorCoordinatorRef ⟨errors, lifecycle⟩
      fun _ control => control = ⟨errors, lifecycle⟩ := .get (.ret rfl)
  refine (onControl_spec herrors hlifecycle hread).bind ?_
  rintro value _ ⟨control, rfl, rfl⟩
  exact .get (.ret (setControl_self herrors hlifecycle))

theorem nextSequence_spec {current : Nat} (operation : String) (hroom : current < maxCounter) :
    Succeeds (nextSequence current operation) dispatcher fun _ last => last = dispatcher :=
  .passes (Nat.not_le.2 hroom) (.ret rfl)

end Parts

/-! ## Finishing a recovery -/

section Recovery

variable {control : EngineControl} {action : EngineRecoveryAction}

theorem exists_failureEvent (error : Error) (subsystem : EngineSubsystem) (operation : String)
    (sequence recoveryAttempts : Nat) (disposition : EngineFailureDisposition) :
    ∃ event, failureEvent error subsystem operation sequence recoveryAttempts disposition =
      .ok event := by
  obtain ⟨event, hevent⟩ := DiagnosticEvent.exists_fromError "engine.subsystem.failed"
    "superi-engine.error" error (by decide) (by decide)
  rw [failureEvent, hevent]
  refine DiagnosticEvent.exists_withFields _ event ?_
  simp only [List.forall_mem_cons, List.not_mem_nil, false_imp_iff, implies_true, and_true]
  decide

theorem exists_recoveryEvent (active : EngineFailureRecord) (action : EngineRecoveryAction) :
    ∃ event, recoveryEvent active action = .ok event := by
  obtain ⟨event, hevent⟩ := DiagnosticEvent.exists_new "engine.subsystem.recovered"
    "superi-engine.error" .info "engine subsystem recovered" (by decide) (by decide)
  rw [recoveryEvent, hevent]
  refine DiagnosticEvent.exists_withFields _ event ?_
  simp only [List.forall_mem_cons, List.not_mem_nil, false_imp_iff, implies_true, and_true]
  decide

theorem validateRecoveryAction_spec (h : Issued control action) (operation : String) :
    Succeeds (validateRecoveryAction action operation) control fun _ last => last = control := by
  obtain ⟨active, hactive, hsequence, hattempt, hrequest⟩ := h.active
  refine .through (fun found last => found = active ∧ last = control) (.get ?_) ?_
  · rw [hactive]
    exact .passes (not_not_intro hsequence) (.ret ⟨rfl, rfl⟩)
  · rintro found control ⟨rfl, rfl⟩
    exact .passes (by simp [hattempt, hrequest]) (.ret rfl)

variable (h : Issued control action) (hsteady : Steady control.lifecycle)
  (hroom : HasRoom control.lifecycle)
include h hsteady hroom

/-- The recovery that is issued completes by completing its lifecycle action. -/
theorem completeRecovery_spec :
    Succeeds (EngineErrorCoordinator.completeRecovery action) control fun _ last => ∃ snapshot,
      completeAction action.lifecycleAction control.lifecycle = .ok snapshot last.lifecycle := by
  refine (validateRecoveryAction_spec h _).bind ?_
  rintro active control rfl
  obtain ⟨event, hevent⟩ := exists_recoveryEvent active action
  refine .through (fun _ last => last = control) (.ofExcept hevent rfl) ?_
  rintro diagnostic control rfl
  refine Succeeds.bind (completeAction_spec hsteady hroom h.pending).returning.onPart ?_
  rintro snapshot _ ⟨next, ⟨hcall, -⟩, rfl⟩
  exact .change (.ret ⟨snapshot, hcall⟩)

theorem failRecovery_spec (error : Error) (hsequence : control.errors.lastSequence < maxCounter) :
    Succeeds (EngineErrorCoordinator.failRecovery action error) control fun _ last =>
      ∃ error snapshot,
        failAction action.lifecycleAction error control.lifecycle = .ok snapshot last.lifecycle := by
  refine (validateRecoveryAction_spec h _).bind ?_
  rintro active control rfl
  refine .through (fun _ last => last = control)
    (.get (.passes (Nat.not_le.2 hsequence) (.ret rfl))) ?_
  rintro sequence control rfl
  obtain ⟨event, hevent⟩ := exists_failureEvent
    (error.withContext ⟨"superi-engine.error", "fail_recovery"⟩) action.subsystem active.operation
    sequence action.attempt (.fromRecoverability error.recoverability)
  refine .through (fun _ last => last = control) (.ofExcept hevent rfl) ?_
  rintro diagnostic control rfl
  refine Succeeds.bind (failAction_spec hsteady hroom h.pending).returning.onPart ?_
  rintro snapshot _ ⟨next, ⟨hcall, -⟩, rfl⟩
  exact .change (.ret ⟨_, snapshot, hcall⟩)

end Recovery

/-! ## Finishing the pending action -/

section Finish

variable {lifecycle : EngineOwnedState} {action : EngineLifecycleAction}
variable (h : Tracked dispatcher) (hready : Ready dispatcher)
  (hlifecycle : dispatcher.lifecycle = some lifecycle)
  (hpending : lifecycle.currentAction = some action)
include h hready hlifecycle hpending

theorem routedRecovery_spec : Succeeds (routedRecovery action) dispatcher fun recovery last =>
    recovery = dispatcher.pendingRecovery ∧ last = dispatcher := by
  refine (lifecycleSnapshot_spec hlifecycle).bind ?_
  rintro snapshot dispatcher ⟨rfl, rfl⟩
  have hsame : lifecycle.latest.pendingAction = some action := by
    rw [(h.steady lifecycle hlifecycle).latest]
    exact hpending
  refine .get (.ret ⟨?_, rfl⟩)
  rw [if_pos hsame]

/-- A recovery that is pending was issued with the action that is pending. -/
theorem issued_of_pending {recovery : EngineRecoveryAction}
    (hrecovery : dispatcher.pendingRecovery = some recovery) :
    recovery.lifecycleAction = action ∧ ∃ errors, dispatcher.errors = some errors ∧
      errors.lastSequence < maxCounter ∧ Issued ⟨errors, lifecycle⟩ recovery := by
  obtain ⟨errors, other, herrors, hother, hissued⟩ := h.issued recovery hrecovery
  rw [hlifecycle, Option.some.injEq] at hother
  subst hother
  have haction := hissued.pending
  rw [hpending, Option.some.injEq] at haction
  exact ⟨haction.symm, errors, herrors, hready.lastSequence errors herrors, hissued⟩

theorem completeRouted_spec : Succeeds (completeRouted action dispatcher.pendingRecovery) dispatcher
    fun execution last => execution.event.isSome = true ∧ ∃ snapshot next,
      completeAction action lifecycle = .ok snapshot next ∧ last.lifecycle = some next := by
  have hsteady := h.steady lifecycle hlifecycle
  have hroom := hready.roomy lifecycle hlifecycle
  cases hrecovery : dispatcher.pendingRecovery with
  | none =>
      refine (onLifecyclePart_spec hlifecycle
        (completeAction_spec hsteady hroom hpending).returning).bind ?_
      rintro snapshot _ ⟨next, ⟨hcall, -⟩, rfl⟩
      exact .ret ⟨rfl, snapshot, next, hcall, rfl⟩
  | some recovery =>
      obtain ⟨rfl, errors, herrors, -, hissued⟩ :=
        issued_of_pending h hready hlifecycle hpending hrecovery
      refine .through (fun _ last => ∃ snapshot next,
        completeAction recovery.lifecycleAction lifecycle = .ok snapshot next ∧
          last.lifecycle = some next) (.get ((nextSequence_spec _
            hready.recoveryStateRevision).bind ?_)) ?_
      · rintro revision dispatcher rfl
        refine (onControl_spec herrors hlifecycle
          (completeRecovery_spec hissued hsteady hroom)).bind ?_
        rintro report _ ⟨control, ⟨snapshot, hcall⟩, rfl⟩
        refine .change ((recoverySnapshot_spec rfl rfl).mono ?_)
        rintro state _ rfl
        exact ⟨snapshot, _, hcall, rfl⟩
      · intro state last hlast
        exact .ret ⟨rfl, hlast⟩

theorem failRouted_spec (failure : EngineReportedFailure) :
    Succeeds (failRouted action failure dispatcher.pendingRecovery) dispatcher
      fun execution last => execution.event.isSome = true ∧ ∃ error snapshot next,
        failAction action error lifecycle = .ok snapshot next ∧ last.lifecycle = some next := by
  have hsteady := h.steady lifecycle hlifecycle
  have hroom := hready.roomy lifecycle hlifecycle
  cases hrecovery : dispatcher.pendingRecovery with
  | none =>
      refine (onLifecyclePart_spec hlifecycle
        (failAction_spec hsteady hroom hpending).returning).bind ?_
      rintro snapshot _ ⟨next, ⟨hcall, -⟩, rfl⟩
      exact .ret ⟨rfl, _, snapshot, next, hcall, rfl⟩
  | some recovery =>
      obtain ⟨rfl, errors, herrors, hsequence, hissued⟩ :=
        issued_of_pending h hready hlifecycle hpending hrecovery
      refine .through (fun _ last => ∃ error snapshot next,
        failAction recovery.lifecycleAction error lifecycle = .ok snapshot next ∧
          last.lifecycle = some next) (.get ((nextSequence_spec _
            hready.recoveryStateRevision).bind ?_)) ?_
      · rintro revision dispatcher rfl
        refine (onControl_spec herrors hlifecycle
          (failRecovery_spec hissued hsteady hroom _ hsequence)).bind ?_
        rintro report _ ⟨control, ⟨error, snapshot, hcall⟩, rfl⟩
        refine .change ((recoverySnapshot_spec rfl rfl).mono ?_)
        rintro state _ rfl
        exact ⟨error, snapshot, _, hcall, rfl⟩
      · intro state last hlast
        exact .ret ⟨rfl, hlast⟩

end Finish

/-! ## Dispatching the end of an action -/

section Dispatch

variable {command : EngineCommand owners} {execution : CommandExecution owners}
variable {post : EngineCommandDispatcher owners → Prop}

/-- With nothing pending in the playback, a state-changing command is admitted. -/
theorem admitCommand_spec (hready : Receptive dispatcher)
    (hemits : command.emitsStateEvent owners dispatcher.others = .ok true) :
    Succeeds (admitCommand command) dispatcher fun sequences last =>
      sequences.2.isSome = true ∧ last = dispatcher := by
  refine .through (fun _ last => last = dispatcher) (.get ?_) ?_
  · rw [hready.playback]
    exact .ret rfl
  rintro _ dispatcher rfl
  refine .get (.through (fun emits last => emits = true ∧ last = dispatcher)
    (.ofExcept hemits ⟨rfl, rfl⟩) ?_)
  rintro emits dispatcher ⟨rfl, rfl⟩
  refine .passes (by simp [hready.playback])
    ((nextSequence_spec _ hready.commandSequence).bind ?_)
  rintro commandSequence dispatcher rfl
  refine .through (fun sequence last => sequence.isSome = true ∧ last = dispatcher) (.get ?_) ?_
  · refine (nextSequence_spec _ hready.eventSequence).bind ?_
    rintro sequence dispatcher rfl
    exact .passes (Nat.not_le.2 hready.slot) (.ret ⟨rfl, rfl⟩)
  · rintro eventSequence dispatcher ⟨hsome, rfl⟩
    exact .ret ⟨hsome, rfl⟩

/-- A command that announces its event and succeeds is dispatched. -/
theorem dispatchCommand_spec {commandSequence eventSequence : Nat}
    (transactionId : EngineTransactionId)
    (hcommand : Succeeds (executeCommand command commandSequence) dispatcher
      fun execution last => execution.event.isSome = true ∧ post last)
    (hframe : ∀ dispatcher last : EngineCommandDispatcher owners,
      SameControl dispatcher last → post dispatcher → post last) :
    Succeeds (dispatchCommand transactionId command commandSequence (some eventSequence)) dispatcher
      fun _ last => post last := by
  refine .bind hcommand.raising ?_
  rintro execution last ⟨hevent, hpost⟩
  obtain ⟨event, hevent⟩ := Option.isSome_iff_exists.1 hevent
  refine .change (.through (fun _ => post) ?_ fun _ _ hlast => .ret hlast)
  rw [hevent]
  exact .change_last (hframe last _ ⟨rfl, rfl, rfl⟩ hpost)

theorem requireExportTeardownReady_spec (hready : Ready dispatcher)
    (action : EngineLifecycleAction) :
    Succeeds (requireExportTeardownReady action) dispatcher fun _ last => last = dispatcher := by
  unfold requireExportTeardownReady
  split
  · exact .ret rfl
  · refine .get (.through (fun final last => final = true ∧ last = dispatcher)
      (.ofExcept hready.jobs ⟨rfl, rfl⟩) ?_)
    rintro final dispatcher ⟨rfl, rfl⟩
    exact .passes_last (by simp) rfl

end Dispatch

/-- The lifecycle went through a call, and the dispatcher owns what that call left. -/
def WentThrough (call : EngineM EngineLifecycleSnapshot) (lifecycle : EngineOwnedState)
    (last : EngineCommandDispatcher owners) : Prop :=
  ∃ snapshot next, call lifecycle = .ok snapshot next ∧ last.lifecycle = some next

/-- Whatever action is pending, both commands that end it are executed on it and succeed. -/
def Finishes (dispatcher : EngineCommandDispatcher owners) : Prop :=
  ∀ transactionId lifecycle action, dispatcher.lifecycle = some lifecycle →
    lifecycle.currentAction = some action →
      Succeeds (dispatch ⟨transactionId, .completeLifecycleAction action⟩) dispatcher
        (fun _ => WentThrough (completeAction action) lifecycle) ∧
      ∀ failure, Succeeds (dispatch ⟨transactionId, .failLifecycleAction action failure⟩) dispatcher
        fun _ last => ∃ error, WentThrough (failAction action error) lifecycle last

theorem Tracked.finishes (h : Tracked dispatcher) (hready : Ready dispatcher) :
    Finishes dispatcher := by
  intro transactionId lifecycle action hlifecycle hpending
  refine ⟨?_, fun failure => ?_⟩
  · refine .bind (admitCommand_spec hready.receptive rfl).raising ?_
    rintro ⟨commandSequence, eventSequence⟩ dispatcher ⟨hsome, rfl⟩
    obtain ⟨sequence, rfl⟩ := Option.isSome_iff_exists.1 hsome
    refine dispatchCommand_spec transactionId ?_ ?_
    · refine (requireExportTeardownReady_spec hready action).bind ?_
      rintro _ dispatcher rfl
      refine (routedRecovery_spec h hready hlifecycle hpending).bind ?_
      rintro recovery dispatcher ⟨rfl, rfl⟩
      exact completeRouted_spec h hready hlifecycle hpending
    · rintro mid last hsame ⟨snapshot, next, hcall, hnext⟩
      exact ⟨snapshot, next, hcall, hsame.lifecycle.trans hnext⟩
  · refine .bind (admitCommand_spec hready.receptive rfl).raising ?_
    rintro ⟨commandSequence, eventSequence⟩ dispatcher ⟨hsome, rfl⟩
    obtain ⟨sequence, rfl⟩ := Option.isSome_iff_exists.1 hsome
    refine dispatchCommand_spec transactionId ?_ ?_
    · refine (routedRecovery_spec h hready hlifecycle hpending).bind ?_
      rintro recovery dispatcher ⟨rfl, rfl⟩
      exact failRouted_spec h hready hlifecycle hpending failure
    · rintro mid last hsame ⟨error, snapshot, next, hcall, hnext⟩
      exact ⟨error, snapshot, next, hcall, hsame.lifecycle.trans hnext⟩

/-! ## A shutdown to its end -/

/-- A step of a run is a call that returns, well or not. -/
def dispatcherStep (dispatcher : EngineCommandDispatcher owners) (call : EngineCall owners) :
    Option (EngineCommandDispatcher owners) :=
  some (dispatcher.after call)

/-- Whether a command ends this action. -/
def EngineCommand.ends (action : EngineLifecycleAction) : EngineCommand owners → Prop
  | .completeLifecycleAction other => other = action
  | .failLifecycleAction other _ => other = action
  | _ => False

/-- Whether a call reports that an action failed. -/
def EngineCall.failsAction : EngineCall owners → Bool
  | .dispatch ⟨_, .failLifecycleAction _ _⟩ => true
  | _ => false

/-- A step on the way to the end: every command ends the action that is pending. -/
def Attends (dispatcher : EngineCommandDispatcher owners) : EngineCall owners → Prop
  | .dispatch request => Ready dispatcher ∧ ∃ lifecycle action,
      dispatcher.lifecycle = some lifecycle ∧ lifecycle.currentAction = some action ∧
        request.command.ends action
  | _ => True

/-- A shutdown has ended: the next lifetime has begun, or the engine rests, and it has stopped
unless something failed. -/
def Ended (fails : Prop) (lifecycle ended : EngineOwnedState) : Prop :=
  ended.lifetime = lifecycle.lifetime + 1 ∨
    ended.mode = .idle ∧ (ended.phase = .stopped ∨
      ended.phase = .failed ∧ (lifecycle.phase = .failed ∨ fails))

/-- On its way the run passes through the end of the shutdown. -/
def PassesEnd (dispatcher : EngineCommandDispatcher owners) (calls : List (EngineCall owners))
    (lifecycle : EngineOwnedState) : Prop :=
  ∃ before after reached ended, calls = before ++ after ∧
    Machine.run dispatcherStep dispatcher before = some reached ∧
    reached.lifecycle = some ended ∧
    Ended (∃ call ∈ before, call.failsAction = true) lifecycle ended

/-- Every run that attends to a shutdown passes through the end of it, after as many commands as
there are subsystems. -/
def ShutsDown (dispatcher : EngineCommandDispatcher owners) : Prop :=
  ∀ lifecycle calls, dispatcher.lifecycle = some lifecycle → lifecycle.mode = .stopping →
    Machine.EveryStep dispatcherStep Attends dispatcher calls →
    EngineSubsystem.all.length ≤ calls.countP EngineCall.isDispatch →
    PassesEnd dispatcher calls lifecycle

theorem attempted_card_lt {lifecycle : EngineOwnedState} {subsystem : EngineSubsystem}
    (hfresh : subsystem ∉ lifecycle.teardownAttempted) :
    lifecycle.teardownAttempted.card < EngineSubsystem.all.length := by
  have hsubset : insert subsystem lifecycle.teardownAttempted ⊆ EngineSubsystem.all.toFinset :=
    fun other _ => List.mem_toFinset.2 other.mem_all
  calc lifecycle.teardownAttempted.card
      < (insert subsystem lifecycle.teardownAttempted).card := by
        rw [Finset.card_insert_of_notMem hfresh]
        exact Nat.lt_succ_self _
    _ ≤ EngineSubsystem.all.toFinset.card := Finset.card_le_card hsubset
    _ ≤ EngineSubsystem.all.length := List.toFinset_card_le _

/-- A command that attends to a shutdown brings it nearer to its end. -/
theorem Attends.descends {lifecycle : EngineOwnedState} {request : EngineCommandRequest owners}
    (h : Tracked dispatcher) (hlifecycle : dispatcher.lifecycle = some lifecycle)
    (hmode : lifecycle.mode = .stopping) (hattends : Attends dispatcher (.dispatch request)) :
    Tracked (dispatcher.after (.dispatch request)) ∧ ∃ next,
      (dispatcher.after (.dispatch request)).lifecycle = some next ∧
        Descends ((EngineCall.dispatch request).failsAction = true) lifecycle next := by
  obtain ⟨hready, other, action, hother, hpending, hends⟩ := hattends
  rw [hlifecycle, Option.some.injEq] at hother
  subst hother
  have hsound := (h.steady lifecycle hlifecycle).sound
  obtain ⟨transactionId, command⟩ := request
  obtain ⟨hcomplete, hfail⟩ := h.finishes hready transactionId lifecycle action hlifecycle hpending
  cases command with
  | completeLifecycleAction other =>
      cases hends
      refine ⟨h.after ⟨fun hstarts => (by cases hstarts), hready.roomy⟩, ?_⟩
      obtain ⟨outcome, last, hdispatch, snapshot, next, hcall, hnext⟩ := hcomplete
      have hdescends := completeAction_descends hsound hmode hpending
      simp only [Ensures, hcall] at hdescends
      refine ⟨next, ?_, ?_⟩
      · simp only [EngineCommandDispatcher.after, hdispatch]
        exact hnext
      · exact hdescends.mono False.elim
  | failLifecycleAction other failure =>
      cases hends
      refine ⟨h.after ⟨fun hstarts => (by cases hstarts), hready.roomy⟩, ?_⟩
      obtain ⟨outcome, last, hdispatch, error, snapshot, next, hcall, hnext⟩ := hfail failure
      have hdescends := failAction_descends hsound hmode hpending error
      simp only [Ensures, hcall] at hdescends
      refine ⟨next, ?_, ?_⟩
      · simp only [EngineCommandDispatcher.after, hdispatch]
        exact hnext
      · exact hdescends.mono fun _ => rfl
  | _ => cases hends

theorem Ended.of_rest {fails : Prop} {lifecycle ended : EngineOwnedState} (h : Sound ended)
    (hmode : ended.mode = .idle)
    (hphase : ended.phase = .failed → lifecycle.phase = .failed ∨ fails) :
    Ended fails lifecycle ended := by
  refine .inr ⟨hmode, ?_⟩
  cases h.shape with
  | idle _ _ hshape =>
      rcases hshape with hfailed | ⟨hstopped, -⟩
      · exact .inr ⟨hfailed, hphase hfailed⟩
      · exact .inl hstopped
  | starting _ hmode' | recovering _ hmode' | preparingSleep _ hmode' | waking _ hmode'
  | stopping _ hmode' | rollingBack _ hmode' | running hmode' | sleeping hmode' =>
      rw [hmode] at hmode'
      cases hmode'

section Ends

variable {lifecycle next ended : EngineOwnedState} {call : EngineCall owners}
variable {calls : List (EngineCall owners)}

theorem PassesEnd.first (hended : (dispatcher.after call).lifecycle = some ended)
    (h : Ended (call.failsAction = true) lifecycle ended) :
    PassesEnd dispatcher (call :: calls) lifecycle := by
  refine ⟨[call], calls, dispatcher.after call, ended, rfl, rfl, hended, ?_⟩
  simpa only [List.mem_singleton, exists_eq_left] using h

theorem PassesEnd.cons (h : PassesEnd (dispatcher.after call) calls next)
    (hlifetime : next.lifetime = lifecycle.lifetime)
    (hphase : next.phase = .failed → lifecycle.phase = .failed ∨ call.failsAction = true) :
    PassesEnd dispatcher (call :: calls) lifecycle := by
  obtain ⟨before, after, reached, ended, rfl, hrun, hended, hlast⟩ := h
  refine ⟨call :: before, after, reached, ended, rfl, hrun, hended, ?_⟩
  rcases hlast with hlast | ⟨hmode, hstopped | ⟨hfailed, hcause⟩⟩
  · exact .inl (hlast.trans (congrArg (· + 1) hlifetime))
  · exact .inr ⟨hmode, .inl hstopped⟩
  · refine .inr ⟨hmode, .inr ⟨hfailed, ?_⟩⟩
    rcases hcause with hearlier | ⟨other, hmem, hother⟩
    · exact (hphase hearlier).imp_right fun hcall => ⟨call, List.mem_cons_self, hcall⟩
    · exact .inr ⟨other, List.mem_cons_of_mem call hmem, hother⟩

/-- The induction over a run: the subsystems attempted and the commands to come are enough. -/
theorem Tracked.passesEnd (h : Tracked dispatcher) (hlifecycle : dispatcher.lifecycle = some lifecycle)
    (hmode : lifecycle.mode = .stopping)
    (hsteps : Machine.EveryStep dispatcherStep Attends dispatcher calls)
    (hlength : EngineSubsystem.all.length ≤
      lifecycle.teardownAttempted.card + calls.countP EngineCall.isDispatch) :
    PassesEnd dispatcher calls lifecycle := by
  induction calls generalizing dispatcher lifecycle with
  | nil =>
      -- every subsystem has been attempted, so nothing could be pending
      obtain ⟨action, -, -, hfresh⟩ :=
        teardown_of_stopping (h.steady lifecycle hlifecycle).sound hmode
      exact absurd (attempted_card_lt hfresh) (Nat.not_lt.2 hlength)
  | cons call rest ih =>
      have hattends : Attends dispatcher call := hsteps.head
      have htail : Machine.EveryStep dispatcherStep Attends (dispatcher.after call) rest :=
        hsteps.tail rfl
      cases hcall : call.isDispatch with
      | false =>
          have hsame : SameControl dispatcher (dispatcher.after call) := after_same hcall
          rw [List.countP_cons_of_neg (by simp [hcall])] at hlength
          exact (ih (h.of_sameControl hsame) (hsame.lifecycle.trans hlifecycle) hmode htail
            hlength).cons rfl .inl
      | true =>
          rw [List.countP_cons_of_pos hcall] at hlength
          cases call with
          | drainEvents | discardPlaybackEvents | executePlayback _ _ | dropExecutor => cases hcall
          | dispatch request =>
              obtain ⟨hnext, next, hnextLifecycle, hdescends⟩ :=
                hattends.descends h hlifecycle hmode
              cases hdescends with
              | continues mode lifetime phase attempted =>
                  exact (ih hnext hnextLifecycle mode htail (by omega)).cons lifetime phase
              | rests mode phase =>
                  exact .first hnextLifecycle
                    (.of_rest (hnext.steady next hnextLifecycle).sound mode phase)
              | restarts lifetime => exact .first hnextLifecycle (.inl lifetime)

theorem Tracked.shutsDown (h : Tracked dispatcher) : ShutsDown dispatcher := by
  intro lifecycle calls hlifecycle hmode hsteps hlength
  exact h.passesEnd hlifecycle hmode hsteps (hlength.trans (Nat.le_add_left _ _))

end Ends

/-! ## Orderly runs -/

theorem new_tracked {others : owners.State} {bridged : Bool}
    {start : EngineCommandDispatcher owners} :
    EngineCommandDispatcher.new owners others bridged = .ok start → Tracked start := by
  intro hnew
  unfold EngineCommandDispatcher.new at hnew
  cases hlifecycle : EngineLifecycle.new with
  | error error =>
      rw [hlifecycle] at hnew
      cases hnew
  | ok lifecycle =>
      rw [hlifecycle] at hnew
      cases hnew
      exact .of_idle (new_steady hlifecycle) rfl rfl

theorem lifecycle_actions_finish {others : owners.State} {bridged : Bool}
    {start last : EngineCommandDispatcher owners} {calls : List (EngineCall owners)}
    (hstart : EngineCommandDispatcher.new owners others bridged = .ok start)
    (hrun : Machine.run dispatcherStep start calls = some last)
    (horderly : Machine.EveryStep dispatcherStep Orderly start calls) :
    (Ready last → Finishes last) ∧ ShutsDown last := by
  have hlast : Tracked last := by
    refine Machine.invariant_of_run ?_ (new_tracked hstart) hrun horderly
    intro state next call hstate hcall hstep
    rw [← Option.some.inj hstep]
    exact hstate.after hcall
  exact ⟨hlast.finishes, hlast.shutsDown⟩

/-! ## A dispatcher with nothing else to own -/

instance : Decidable (Roomy dispatcher) :=
  decidable_of_iff (dispatcher.lifecycle.all (fun lifecycle => decide (HasRoom lifecycle)) = true)
    (by simp only [Roomy, Option.all_eq_true, decide_eq_true_eq])

def noOthers : OtherOwners where
  State := Unit
  Command := Empty
  Result := Empty
  Event := Empty
  PlaybackCommand := Empty
  PlaybackSnapshot := Empty
  emitsStateEvent := nofun
  execute := nofun
  revisions := nofun
  logicalJobsFinal := fun _ => .ok true
  inspects := nofun
  epoch := nofun

def freshDispatcher : EngineCommandDispatcher noOthers :=
  match EngineCommandDispatcher.new noOthers () false with
  | .ok dispatcher => dispatcher
  | .error _ => .scenarioOnly noOthers ()

/-- The call of a command, under one name for all. -/
def commanded (command : EngineCommand noOthers) : EngineCall noOthers :=
  .dispatch ⟨⟨"command"⟩, command⟩

/-- A shutdown once the shared state is there. -/
def earlyShutdown : List (EngineCall noOthers) :=
  [commanded (.completeLifecycleAction ⟨.sharedState, .initializes, 1, 1⟩), commanded .beginShutdown]

/-- All six subsystems are ready; the playback loses its device and is to recover; the engine is
shut down before it has. -/
def shutdownDuringRecovery : List (EngineCall noOthers) :=
  [commanded (.completeLifecycleAction ⟨.sharedState, .initializes, 1, 1⟩),
    commanded (.completeLifecycleAction ⟨.projects, .initializes, 1, 2⟩),
    commanded (.completeLifecycleAction ⟨.devices, .initializes, 1, 3⟩),
    commanded (.completeLifecycleAction ⟨.playback, .initializes, 1, 4⟩),
    commanded (.completeLifecycleAction ⟨.rendering, .initializes, 1, 5⟩),
    commanded (.completeLifecycleAction ⟨.exports, .initializes, 1, 6⟩),
    commanded (.reportRuntimeFailure .playback ⟨.unavailable, .retryable, "device lost", []⟩),
    commanded (.beginRecovery .playback),
    commanded .beginShutdown]

/-- Where calls lead to from the fresh dispatcher. -/
def reachedBy (calls : List (EngineCall noOthers)) : EngineCommandDispatcher noOthers :=
  calls.foldl EngineCommandDispatcher.after freshDispatcher

theorem run_reachedBy (calls : List (EngineCall noOthers)) :
    Machine.run dispatcherStep freshDispatcher calls = some (reachedBy calls) := by
  unfold reachedBy
  generalize freshDispatcher = start
  induction calls generalizing start with
  | nil => rfl
  | cons call rest ih => exact ih (start.after call)

/-- What a dispatcher waits for. -/
def awaited (dispatcher : EngineCommandDispatcher noOthers) :
    Option (EngineMode × Option EngineLifecycleAction) :=
  dispatcher.lifecycle.map fun lifecycle => (lifecycle.mode, lifecycle.currentAction)

theorem exists_of_awaited {dispatcher : EngineCommandDispatcher noOthers} {mode : EngineMode}
    {action : Option EngineLifecycleAction} (h : awaited dispatcher = some (mode, action)) :
    ∃ lifecycle, dispatcher.lifecycle = some lifecycle ∧ lifecycle.mode = mode ∧
      lifecycle.currentAction = action := by
  obtain ⟨lifecycle, hlifecycle, hboth⟩ := Option.map_eq_some_iff.1 h
  cases hboth
  exact ⟨lifecycle, hlifecycle, rfl, rfl⟩

theorem lifecycle_actions_finish_early : ∃ lifecycle,
    Machine.run dispatcherStep freshDispatcher earlyShutdown = some (reachedBy earlyShutdown) ∧
      (reachedBy earlyShutdown).lifecycle = some lifecycle ∧ lifecycle.mode = .stopping ∧
      lifecycle.currentAction = some ⟨.sharedState, .teardown, 1, 3⟩ ∧
      Finishes (reachedBy earlyShutdown) ∧ ShutsDown (reachedBy earlyShutdown) := by
  have hstart : EngineCommandDispatcher.new noOthers () false = .ok freshDispatcher := rfl
  have hrun : Machine.run dispatcherStep freshDispatcher earlyShutdown =
    some (reachedBy earlyShutdown) := run_reachedBy earlyShutdown
  have hfirst : Roomy freshDispatcher := by decide +kernel
  have hsecond : Roomy (reachedBy (earlyShutdown.take 1)) := by decide +kernel
  have horderly : Machine.EveryStep dispatcherStep Orderly freshDispatcher earlyShutdown :=
    .cons ⟨nofun, hfirst⟩ rfl (.cons ⟨fun _ => by decide +kernel, hsecond⟩ rfl .nil)
  obtain ⟨hfinishes, hshutsDown⟩ := lifecycle_actions_finish hstart hrun horderly
  have hready : Ready (reachedBy earlyShutdown) :=
    ⟨rfl, by decide +kernel, rfl, by decide +kernel, by decide +kernel, by decide +kernel,
      by decide +kernel, fun errors herrors => by cases herrors; decide +kernel⟩
  have hawaited : awaited (reachedBy earlyShutdown) =
    some (.stopping, some ⟨.sharedState, .teardown, 1, 3⟩) := by decide +kernel
  obtain ⟨lifecycle, hlifecycle, hmode, haction⟩ := exists_of_awaited hawaited
  exact ⟨lifecycle, hrun, hlifecycle, hmode, haction, hfinishes hready, hshutsDown⟩

/-- A call that changes nothing can be made as often as one likes. -/
theorem run_of_after_eq {call : EngineCall owners} {calls : List (EngineCall owners)}
    (h : dispatcher.after call = dispatcher) (hcalls : ∀ other ∈ calls, other = call) :
    Machine.run dispatcherStep dispatcher calls = some dispatcher := by
  induction calls with
  | nil => rfl
  | cons other rest ih =>
      obtain ⟨rfl, hrest⟩ := List.forall_mem_cons.1 hcalls
      show Machine.run dispatcherStep (dispatcher.after other) rest = some dispatcher
      rw [h]
      exact ih hrest

theorem attends_replicate {call : EngineCall owners} (h : dispatcher.after call = dispatcher)
    (hattends : Attends dispatcher call) (count : Nat) :
    Machine.EveryStep dispatcherStep Attends dispatcher (List.replicate count call) := by
  intro before other after reached hsplit hrun
  have hall : ∀ other ∈ before, other = call := fun other hmem =>
    List.eq_of_mem_replicate (hsplit ▸ List.mem_append_left _ hmem)
  have hother : other = call :=
    List.eq_of_mem_replicate (hsplit ▸ List.mem_append_right before List.mem_cons_self)
  rw [run_of_after_eq h hall, Option.some.injEq] at hrun
  rw [← hrun, hother]
  exact hattends

/-- The completion that the stopping engine waits for. -/
def exportsTornDown : EngineCall noOthers :=
  commanded (.completeLifecycleAction ⟨.exports, .teardown, 1, 8⟩)

/-- Whether that completion is accepted. -/
def completesExports (dispatcher : EngineCommandDispatcher noOthers) : Bool :=
  match dispatch ⟨⟨"command"⟩, .completeLifecycleAction ⟨.exports, .teardown, 1, 8⟩⟩ dispatcher with
  | .ok _ _ => true
  | .error _ _ => false

/-- The completion of the pending teardown is routed to the recovery the shutdown has replaced, and
refused; however often it is reported, the engine does not stop. -/
theorem shutdown_during_recovery_stuck :
    Machine.run dispatcherStep freshDispatcher shutdownDuringRecovery =
        some (reachedBy shutdownDuringRecovery) ∧
      Ready (reachedBy shutdownDuringRecovery) ∧
      awaited (reachedBy shutdownDuringRecovery) =
        some (.stopping, some ⟨.exports, .teardown, 1, 8⟩) ∧
      ¬ Finishes (reachedBy shutdownDuringRecovery) ∧
      ¬ ShutsDown (reachedBy shutdownDuringRecovery) := by
  have hready : Ready (reachedBy shutdownDuringRecovery) :=
    ⟨rfl, by decide +kernel, rfl, by decide +kernel, by decide +kernel, by decide +kernel,
      by decide +kernel, fun errors herrors => by cases herrors; decide +kernel⟩
  have hawaited : awaited (reachedBy shutdownDuringRecovery) =
    some (.stopping, some ⟨.exports, .teardown, 1, 8⟩) := by decide +kernel
  have hsame : (reachedBy shutdownDuringRecovery).after exportsTornDown =
    reachedBy shutdownDuringRecovery := rfl
  have hrefused : completesExports (reachedBy shutdownDuringRecovery) = false := by decide +kernel
  obtain ⟨lifecycle, hlifecycle, hmode, haction⟩ := exists_of_awaited hawaited
  refine ⟨run_reachedBy _, hready, hawaited, fun hfinishes => ?_, fun hshutsDown => ?_⟩
  · obtain ⟨⟨outcome, last, hcall, -⟩, -⟩ :=
      hfinishes ⟨"command"⟩ lifecycle _ hlifecycle haction
    rw [completesExports, hcall] at hrefused
    cases hrefused
  · obtain ⟨before, after, reached, ended, hsplit, hrun, hended, hlast⟩ :=
      hshutsDown lifecycle (List.replicate 6 exportsTornDown) hlifecycle hmode
        (attends_replicate hsame ⟨hready, lifecycle, _, hlifecycle, haction, rfl⟩ 6) (by decide)
    have hbefore : ∀ other ∈ before, other = exportsTornDown := fun other hmem =>
      List.eq_of_mem_replicate (hsplit ▸ List.mem_append_left after hmem)
    rw [run_of_after_eq hsame hbefore, Option.some.injEq] at hrun
    rw [← hrun, hlifecycle, Option.some.injEq] at hended
    subst hended
    rcases hlast with hlifetime | ⟨hidle, -⟩
    · exact Nat.ne_of_lt (Nat.lt_succ_self _) hlifetime
    · rw [hmode] at hidle
      cases hidle

end Engine
end Superi

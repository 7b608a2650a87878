import Superi.Engine.Errors
import Superi.Engine.LifecycleCalls

/-!
# Faults — the failures that the records of the lifecycle show

A subsystem shows a failure while it is degraded, recovering or failed.  `Shows faults owned` says
that the records show the failures of `faults` and no others.  Initialization, sleep, wake and
teardown keep it as long as no subsystem they touch has a failure; a runtime failure and the end of
a recovery change it at one subsystem.
-/

namespace Superi
namespace Engine

open Core Concurrency Stateful EngineOwnedState

variable {α : Type}

/-! ## Failures that are shown -/

/-- Whether a state shows a failure. -/
def EngineSubsystemState.showsFailure : EngineSubsystemState → Bool
  | .degraded | .recovering | .failed => true
  | _ => false

/-- Whether something other than a recovery works on a subsystem in this mode. -/
def EngineMode.touches : EngineMode → EngineSubsystem → Bool
  | .starting, _ | .stopping, _ | .rollingBack, _ => true
  | .preparingSleep, subsystem | .sleeping, subsystem | .waking, subsystem =>
      subsystem.participatesInSleep
  | .running, _ | .recovering, _ | .idle, _ => false

/-- An active failure, as far as the lifecycle shows it. -/
structure Fault where
  disposition : EngineFailureDisposition
  recovering : Bool

abbrev Faults := EngineSubsystem → Option Fault

/-- A record shows a failure exactly when there is one: as recovering while a recovery is under way,
and as failed when it is terminal. -/
def SubsystemRecord.Matches (record : SubsystemRecord) : Option Fault → Prop
  | none => record.state.showsFailure = false ∧ record.failure = none
  | some fault => record.state.showsFailure = true ∧
      (record.state = .recovering ↔ fault.recovering = true) ∧
      (fault.disposition = .restartRequired → record.state = .failed)

/-- The records show the failures, and nothing but a recovery works on a subsystem that has one. -/
structure Shows (faults : Faults) (owned : EngineOwnedState) : Prop where
  records : ∀ subsystem, (owned.records subsystem).Matches (faults subsystem)
  spared : ∀ subsystem, owned.mode.touches subsystem = true → faults subsystem = none

variable {faults : Faults} {owned last : EngineOwnedState} {subsystem : EngineSubsystem}
variable {record : SubsystemRecord} {action : EngineLifecycleAction} {error : Error}

theorem matches_served : SubsystemRecord.served.Matches none := ⟨rfl, rfl⟩

theorem matches_offline : SubsystemRecord.offline.Matches none := ⟨rfl, rfl⟩

/-- A sound record may go into any state that shows no failure. -/
theorem SubsystemRecord.Matches.enters (h : record.Matches none) {state : EngineSubsystemState}
    (ownsResources : Bool) (hstate : state.showsFailure = false) :
    SubsystemRecord.Matches ⟨state, ownsResources, record.failure⟩ none :=
  ⟨hstate, h.2⟩

/-- The failure that an error leaves. -/
def Fault.fromError (error : Error) : Fault := ⟨.fromRecoverability error.recoverability, false⟩

theorem matches_failedState (error : Error) (ownsResources : Bool)
    (failure : Option EngineFailureSnapshot) :
    SubsystemRecord.Matches ⟨failedState error, ownsResources, failure⟩
      (some (.fromError error)) := by
  unfold failedState isTerminal Fault.fromError
  cases error.recoverability with
  | terminal => exact ⟨rfl, ⟨nofun, nofun⟩, fun _ => rfl⟩
  | retryable | degraded | userCorrectable => exact ⟨rfl, ⟨nofun, nofun⟩, nofun⟩

namespace Shows

/-- Only the records and the mode matter. -/
theorem moves (h : Shows faults owned) (hrecords : last.records = owned.records)
    (hspared : ∀ subsystem, last.mode.touches subsystem = true → faults subsystem = none) :
    Shows faults last := by
  refine ⟨fun subsystem => ?_, hspared⟩
  rw [hrecords]
  exact h.records subsystem

theorem setRecord (h : Shows faults owned) (hrecord : record.Matches (faults subsystem)) :
    Shows faults (owned.setRecord subsystem record) := by
  refine ⟨fun other => ?_, h.spared⟩
  rw [records_setRecord]
  split
  · rename_i hother
    rwa [hother]
  · exact h.records other

/-- The failure of one subsystem changes together with its record. -/
theorem update (h : Shows faults owned) (subsystem : EngineSubsystem) {fault : Option Fault}
    (hrecord : record.Matches fault) (htouches : ∀ other, owned.mode.touches other = false) :
    Shows (Function.update faults subsystem fault) (owned.setRecord subsystem record) := by
  refine ⟨fun other => ?_, fun other hother => ?_⟩
  · rw [records_setRecord, Function.update_apply]
    split
    · exact hrecord
    · exact h.records other
  · have hfalse : owned.mode.touches other = true := hother
    rw [htouches other] at hfalse
    cases hfalse

theorem of_none (hnone : ∀ subsystem, faults subsystem = none)
    (hrecords : ∀ subsystem, (owned.records subsystem).Matches none) : Shows faults owned := by
  refine ⟨fun subsystem => ?_, fun subsystem _ => hnone subsystem⟩
  rw [hnone]
  exact hrecords subsystem

theorem sound_record (h : Shows faults owned) (hnone : faults subsystem = none) :
    (owned.records subsystem).Matches none := by
  rw [← hnone]
  exact h.records subsystem

end Shows

/-! ## Steps that show nothing new -/

/-- What the failures are shown by. -/
def shown (owned : EngineOwnedState) : EngineMode × (EngineSubsystem → SubsystemRecord) :=
  (owned.mode, owned.records)

theorem Shows.of_shown (h : Shows faults owned) (hsame : shown last = shown owned) :
    Shows faults last := by
  have hmode : last.mode = owned.mode := congrArg Prod.fst hsame
  apply h.moves (congrArg Prod.snd hsame)
  rw [hmode]
  exact h.spared

theorem shows_of_frames {call : EngineM α} (hframes : Frames shown call) (h : Shows faults owned) :
    Ensures call owned (fun _ => Shows faults) fun _ => True :=
  (hframes owned).mono (fun _ _ => h.of_shown) fun _ _ => True.intro

theorem frames_onCoordinator (call : EStateM Error SharedLifecycle α) :
    Frames shown (onCoordinator call) := .onPart fun _ _ => rfl

theorem frames_acknowledgeTransition (expected : LifecyclePhase) (message operation : String) :
    Frames shown (acknowledgeTransition expected message operation) :=
  Frames.get.bind fun _ => (frames_onCoordinator _).bind fun _ => .check

theorem frames_failCoordinator (error : Error) : Frames shown (failCoordinator error) :=
  (frames_onCoordinator _).bind fun _ => .ret

theorem frames_issueAction (subsystem : EngineSubsystem) (kind : EngineLifecycleActionKind) :
    Frames shown (issueAction subsystem kind) := by
  intro start
  exact .get (.check rfl fun _ => .put_last rfl)

theorem frames_validateAction (action : EngineLifecycleAction) :
    Frames shown (validateAction action) :=
  Frames.get.bind fun _ => .check

theorem frames_publish : Frames shown publish := by
  intro start
  exact .get (.check rfl fun _ => .check rfl fun _ => .put (.ret rfl))

theorem frames_latest : Frames shown latest := Frames.get.bind fun _ => .ret

theorem frames_acknowledgeStop : Frames shown acknowledgeStop := by
  intro start
  refine .get ?_
  split
  · exact frames_acknowledgeTransition _ _ _ start
  · exact .ret rfl

/-- A call that publishes what it leaves. -/
theorem published_shows {call : EngineM α} (h : Ensures call owned (fun _ => Shows faults)
    fun _ => True) :
    Ensures (call >>= fun _ => publish) owned (fun _ => Shows faults) fun _ => True :=
  h.bind fun _ _ hlast => shows_of_frames frames_publish hlast

theorem assign_shows (h : Shows faults owned) (hrecord : record.Matches (faults subsystem))
    (kind : EngineLifecycleActionKind) :
    Ensures (assign subsystem record kind) owned (fun _ => Shows faults) fun _ => True :=
  .change (shows_of_frames (frames_issueAction subsystem kind) (h.setRecord hrecord))

/-- The engine runs and nothing works on its subsystems. -/
theorem change_mode (h : Shows faults owned) {mode : EngineMode}
    (htouches : ∀ other, mode.touches other = false) :
    Ensures (modify fun owned => { owned with mode } : EngineM PUnit) owned
      (fun _ => Shows faults) fun _ => True := by
  refine .change_last (h.moves rfl fun other hother => ?_)
  have hfalse : mode.touches other = true := hother
  rw [htouches other] at hfalse
  cases hfalse

theorem failEngine_shows (h : Shows faults owned) :
    Ensures (failEngine error) owned (fun _ => Shows faults) fun _ => True :=
  (shows_of_frames (frames_failCoordinator error) h).bind fun _ _ hlast =>
    change_mode hlast fun _ => rfl

/-! ## Scheduling -/

theorem scheduleNextInitialization_shows (h : Shows faults owned) (hmode : owned.mode = .starting) :
    Ensures scheduleNextInitialization owned (fun _ => Shows faults) fun _ => True := by
  refine .get ?_
  cases EngineSubsystem.all.find? owned.canInitialize with
  | some subsystem =>
      have hnone : faults subsystem = none := h.spared subsystem (by rw [hmode]; rfl)
      refine assign_shows h ?_ _
      rw [hnone]
      exact ⟨rfl, rfl⟩
  | none =>
      refine .get (.check trivial fun _ => ?_)
      apply (shows_of_frames (frames_acknowledgeTransition _ _ _) h).bind
      intro _ last hlast
      exact change_mode hlast fun _ => rfl

/-- The next subsystem to sleep or to wake has no failure, and neither does the engine that is done.
-/
theorem scheduleNextSleepPreparation_shows (h : Shows faults owned)
    (hmode : owned.mode = .preparingSleep) (hshared : .sharedState ∉ owned.sleepPending) :
    Ensures scheduleNextSleepPreparation owned (fun _ => Shows faults) fun _ => True := by
  have hspared (other : EngineSubsystem) (hother : other.participatesInSleep = true) :
      faults other = none := h.spared other (by rw [hmode]; exact hother)
  refine .get ?_
  cases hfind : EngineSubsystem.all.reverse.find? fun subsystem =>
      decide (subsystem ∈ owned.sleepPending) with
  | some subsystem =>
      have hmem := List.find?_some hfind
      rw [decide_eq_true_eq] at hmem
      have hnone : faults subsystem = none :=
        hspared subsystem (decide_eq_true fun heq => hshared (heq ▸ hmem))
      refine assign_shows h ?_ _
      rw [hnone]
      exact (h.sound_record hnone).enters _ rfl
  | none =>
      apply (shows_of_frames (frames_acknowledgeTransition _ _ _) h).bind
      intro _ last hlast
      exact .change_last (hlast.moves rfl hspared)

theorem scheduleNextWake_shows (h : Shows faults owned) (hmode : owned.mode = .waking)
    (hshared : .sharedState ∉ owned.wakePending) :
    Ensures scheduleNextWake owned (fun _ => Shows faults) fun _ => True := by
  refine .get ?_
  cases hfind : EngineSubsystem.all.find? fun subsystem =>
      decide (subsystem ∈ owned.wakePending) with
  | some subsystem =>
      have hmem := List.find?_some hfind
      rw [decide_eq_true_eq] at hmem
      have hnone : faults subsystem = none := by
        apply h.spared subsystem
        rw [hmode]
        exact decide_eq_true fun heq => hshared (heq ▸ hmem)
      refine assign_shows h ?_ _
      rw [hnone]
      exact (h.sound_record hnone).enters _ rfl
  | none =>
      apply (shows_of_frames (frames_acknowledgeTransition _ _ _) h).bind
      intro _ last hlast
      exact change_mode hlast fun _ => rfl

section Teardown

variable (hnone : ∀ subsystem, faults subsystem = none)
include hnone

/-- A lifetime begins without failures. -/
theorem startNewLifetime_shows :
    Ensures startNewLifetime owned (fun _ => Shows faults) fun _ => True := by
  refine .get (.check trivial fun _ => .through (fun _ _ => True) (.anyway _ _) ?_)
  intro _ mid _
  refine .check trivial fun _ => .change (scheduleNextInitialization_shows ?_ rfl)
  exact .of_none hnone fun _ => matches_offline

theorem restartIfRequested_shows (h : Shows faults owned) :
    Ensures restartIfRequested owned (fun _ => Shows faults) fun _ => True := by
  refine .get ?_
  split
  · exact .put (startNewLifetime_shows hnone)
  · exact .ret h

theorem finishTeardown_shows (h : Shows faults owned) :
    Ensures finishTeardown owned (fun _ => Shows faults) fun _ => True := by
  refine .get ?_
  split
  · apply (shows_of_frames frames_acknowledgeStop h).bind
    intro _ mid hmid
    refine .change (restartIfRequested_shows hnone ?_)
    exact hmid.moves rfl fun other _ => hnone other
  · exact .put_last (h.moves rfl fun other _ => hnone other)
  · exact .raised trivial

theorem scheduleNextTeardown_shows (h : Shows faults owned) :
    Ensures scheduleNextTeardown owned (fun _ => Shows faults) fun _ => True := by
  refine .get ?_
  cases EngineSubsystem.all.reverse.find? owned.canTearDown with
  | some subsystem =>
      refine assign_shows h ?_ _
      rw [hnone]
      exact (h.sound_record (hnone subsystem)).enters _ rfl
  | none =>
      refine .change (.get ?_)
      split
      · exact .put_last (h.moves rfl fun other _ => hnone other)
      · exact finishTeardown_shows hnone (h.moves rfl h.spared)

end Teardown

/-! ## Completed actions -/

/-- The shared state takes no part in sleep and wake. -/
theorem shared_of_sound (h : Sound owned) :
    (owned.mode = .preparingSleep → .sharedState ∉ owned.sleepPending) ∧
      (owned.mode = .waking → .sharedState ∉ owned.wakePending) := by
  cases h.shape with
  | preparingSleep _ hmode _ _ _ hshared => simp [hmode, hshared]
  | waking _ hmode _ _ _ hshared => simp [hmode, hshared]
  | starting _ hmode | recovering _ hmode | stopping _ hmode | rollingBack _ hmode | running hmode
  | sleeping hmode | idle hmode => simp [hmode]

/-- The subsystem of a pending action other than a recovery has no failure. -/
theorem Shows.touched (h : Shows faults owned) (hsound : Sound owned)
    (hpending : owned.currentAction = some action) :
    action.kind = .recover ∧ (owned.records action.subsystem).state = .recovering ∨
      action.kind ≠ .recover ∧ faults action.subsystem = none := by
  have hshared {pending : Finset EngineSubsystem} (hmem : action.subsystem ∈ pending)
      (hshared : .sharedState ∉ pending) : action.subsystem.participatesInSleep = true :=
    decide_eq_true fun heq => hshared (heq ▸ hmem)
  cases hsound.shape with
  | recovering subsystem hmode hphase hpends =>
      obtain ⟨hkind, rfl⟩ := hpends.of_action hpending
      exact .inl ⟨hkind, hpends.state⟩
  | starting subsystem hmode hphase hpends | stopping subsystem hmode hpends
  | rollingBack subsystem hmode hphase hpends =>
      obtain ⟨hkind, rfl⟩ := hpends.of_action hpending
      exact .inr ⟨by simp [hkind], h.spared _ (by rw [hmode]; rfl)⟩
  | preparingSleep subsystem hmode hphase hpends hmem hnot
  | waking subsystem hmode hphase hpends hmem hnot =>
      obtain ⟨hkind, rfl⟩ := hpends.of_action hpending
      exact .inr ⟨by simp [hkind], h.spared _ (by rw [hmode]; exact hshared hmem hnot)⟩
  | running hmode hphase hidle | sleeping hmode hphase hidle | idle hmode hidle =>
      rw [hidle] at hpending
      cases hpending

theorem completeInitialize_shows (h : Shows faults owned) :
    Ensures (completeInitialize action) owned (fun _ => Shows faults) fun _ => True := by
  refine .get (.check trivial fun hcheck => .put ?_)
  have hmode : owned.mode = .starting := not_not.1 (not_or.1 hcheck).1
  have hnone : faults action.subsystem = none := h.spared _ (by rw [hmode]; rfl)
  refine scheduleNextInitialization_shows (h.setRecord ?_) hmode
  rw [hnone]
  exact matches_served

theorem completePrepareSleep_shows (h : Shows faults owned)
    (hshared : owned.mode = .preparingSleep → .sharedState ∉ owned.sleepPending)
    (hnone : faults action.subsystem = none) :
    Ensures (completePrepareSleep action) owned (fun _ => Shows faults) fun _ => True := by
  refine .get (.check trivial fun hcheck => .put ?_)
  have hmode : owned.mode = .preparingSleep := (not_not.1 hcheck).1
  have hrecord : Shows faults (owned.setRecord action.subsystem { owned.records action.subsystem with
      state := .sleeping
      ownsResources := action.subsystem.retainsResourcesDuringSleep }) := by
    apply h.setRecord
    rw [hnone]
    exact (h.sound_record hnone).enters _ rfl
  refine scheduleNextSleepPreparation_shows (hrecord.moves rfl hrecord.spared) hmode ?_
  exact fun hmem => hshared hmode (Finset.mem_of_mem_erase hmem)

theorem completeWake_shows (h : Shows faults owned)
    (hshared : owned.mode = .waking → .sharedState ∉ owned.wakePending)
    (hnone : faults action.subsystem = none) :
    Ensures (completeWake action) owned (fun _ => Shows faults) fun _ => True := by
  refine .get (.check trivial fun hcheck => .put ?_)
  have hmode : owned.mode = .waking := (not_not.1 hcheck).1
  have hrecord : Shows faults (owned.setRecord action.subsystem .served) := by
    apply h.setRecord
    rw [hnone]
    exact matches_served
  refine scheduleNextWake_shows (hrecord.moves rfl hrecord.spared) hmode ?_
  exact fun hmem => hshared hmode (Finset.mem_of_mem_erase hmem)

theorem completeTeardown_shows (h : Shows faults owned) :
    Ensures (completeTeardown action) owned (fun _ => Shows faults) fun _ => True := by
  refine .get (.check trivial fun hcheck => .put ?_)
  have hnone : ∀ subsystem, faults subsystem = none := by
    intro subsystem
    apply h.spared
    rcases not_not.1 (not_or.1 hcheck).1 with hmode | hmode <;> rw [hmode] <;> rfl
  apply scheduleNextTeardown_shows hnone
  have hrecord : Shows faults (owned.setRecord action.subsystem .offline) := by
    apply h.setRecord
    rw [hnone]
    exact matches_offline
  exact hrecord.moves rfl hrecord.spared

theorem completeKind_shows (h : Shows faults owned) (hkind : action.kind ≠ .recover)
    (hsleep : owned.mode = .preparingSleep → .sharedState ∉ owned.sleepPending)
    (hwake : owned.mode = .waking → .sharedState ∉ owned.wakePending)
    (hnone : faults action.subsystem = none) :
    Ensures (completeKind action) owned (fun _ => Shows faults) fun _ => True := by
  unfold completeKind
  split
  · exact completeInitialize_shows h
  · exact absurd ‹_› hkind
  · exact completePrepareSleep_shows h hsleep hnone
  · exact completeWake_shows h hwake hnone
  · exact completeTeardown_shows h

/-- An action other than a recovery completes without a change of the failures. -/
theorem completeAction_shows (h : Shows faults owned) (hsound : Sound owned)
    (hkind : action.kind ≠ .recover) :
    Ensures (completeAction action) owned (fun _ => Shows faults) fun _ => True := by
  refine .through (fun _ last => owned.currentAction = some action ∧ last = owned) ?_ ?_
  · exact .get (.check_last trivial fun hcurrent => ⟨not_not.1 hcurrent, rfl⟩)
  · rintro _ owned ⟨hpending, rfl⟩
    have hnone : faults action.subsystem = none := by
      rcases h.touched hsound hpending with ⟨hrecover, -⟩ | ⟨-, hnone⟩
      · exact absurd hrecover hkind
      · exact hnone
    have hshared := shared_of_sound hsound
    exact .change (published_shows (completeKind_shows (h.moves rfl h.spared) hkind hshared.1
      hshared.2 hnone))

/-! ## The end of a recovery -/

section Recovery

variable (hkind : action.kind = .recover)
include hkind

/-- A recovery that completes takes the failure of its subsystem away. -/
theorem completeAction_recovers (h : Shows faults owned) :
    Ensures (completeAction action) owned
      (fun _ => Shows (Function.update faults action.subsystem none)) fun _ => True := by
  apply (shows_of_frames (frames_validateAction action) h).bind
  intro _ mid hmid
  refine .change (published_shows ?_)
  rw [completeKind, hkind]
  refine .get (.check trivial fun hcheck => .put_last ?_)
  have hmode : mid.mode = .recovering := not_not.1 (not_or.1 hcheck).1
  have hupdated := hmid.update action.subsystem matches_served fun other => by
    rw [hmode]
    rfl
  exact hupdated.moves rfl nofun

/-- A recovery that fails leaves the new failure. -/
theorem failAction_recovers (h : Shows faults owned) (error : Error) :
    Ensures (failAction action error) owned
      (fun _ => Shows (Function.update faults action.subsystem (some (.fromError error))))
      fun _ => True := by
  apply (shows_of_frames (frames_validateAction action) h).bind
  intro _ mid hmid
  refine .change (published_shows ?_)
  rw [failKind, hkind]
  refine .get (.check trivial fun hcheck => .put ?_)
  have hmode : mid.mode = .recovering := not_not.1 hcheck
  have hupdated := hmid.update action.subsystem (matches_failedState error
    (mid.records action.subsystem).ownsResources (some (.fromError action.subsystem error)))
    fun other => by
      rw [hmode]
      rfl
  have hleft : Shows _ { mid.setRecord action.subsystem
      ⟨failedState error, (mid.records action.subsystem).ownsResources,
        some (.fromError action.subsystem error)⟩ with
      lastFailure := some (.fromError action.subsystem error), currentAction := none } :=
    hupdated.moves rfl hupdated.spared
  split
  · exact failEngine_shows hleft
  · exact change_mode hleft fun _ => rfl

end Recovery

/-! ## Requests -/

/-- A subsystem without a failure is restored to a state that shows none. -/
theorem matches_restoreStableState (h : record.Matches none) :
    (restoreStableState record).Matches none := by
  obtain ⟨-, hfailure⟩ := h
  refine ⟨?_, hfailure⟩
  simp only [restoreStableState, hfailure]
  split <;> rfl

/-- Nor does a cancelled action other than a recovery leave a failure behind. -/
theorem matches_cancelledRecord {kind : EngineLifecycleActionKind} (h : record.Matches none)
    (hkind : kind ≠ .recover) : (cancelledRecord kind record).Matches none := by
  cases kind with
  | initializes => exact h.enters _ rfl
  | recover => exact absurd rfl hkind
  | prepareSleep | wake => exact matches_restoreStableState h
  | teardown =>
      refine ⟨?_, h.2⟩
      simp only [cancelledRecord, h.2]
      rfl

theorem matches_forgetSleep (h : record.Matches none) : (forgetSleep record).Matches none := by
  unfold forgetSleep
  split
  · exact ⟨rfl, rfl⟩
  · exact h

section Requests

variable (h : Shows faults owned) (hsound : Sound owned)
include h hsound

theorem cancelTransitionAction_shows (kind : EngineLifecycleActionKind) (hkind : kind ≠ .recover) :
    Ensures (cancelTransitionAction kind) owned (fun _ => Shows faults) fun _ => True := by
  refine .get ?_
  cases hpending : owned.currentAction with
  | none => exact .ret h
  | some action =>
      refine .check trivial fun hsame => .put_last ?_
      rw [not_not] at hsame
      rcases h.touched hsound hpending with ⟨hrecover, -⟩ | ⟨-, hnone⟩
      · exact absurd (hsame.symm.trans hrecover) hkind
      · have hrecord : Shows faults (owned.setRecord action.subsystem
            (restoreStableState (owned.records action.subsystem))) := by
          apply h.setRecord
          rw [hnone]
          exact matches_restoreStableState (h.sound_record hnone)
        exact hrecord.moves rfl hrecord.spared

omit hsound in
/-- What sleep and wake find: a running engine without failures in the subsystems that take part, or
one that is already on its way. -/
theorem rested_of_mode (hrunning : owned.mode = .running → ∀ subsystem,
      subsystem.participatesInSleep = true → faults subsystem = none)
    (hmode : owned.mode = .running ∨ owned.mode = .preparingSleep ∨ owned.mode = .sleeping ∨
      owned.mode = .waking) (hsubsystem : subsystem.participatesInSleep = true) :
    faults subsystem = none := by
  rcases hmode with hmode | hmode | hmode | hmode
  · exact hrunning hmode subsystem hsubsystem
  all_goals
    apply h.spared
    rw [hmode]
    exact hsubsystem

theorem admitSleep_shows (hrunning : owned.mode = .running → ∀ subsystem,
      subsystem.participatesInSleep = true → faults subsystem = none) :
    Ensures (admitSleep owned) owned (fun _ last => Shows faults last ∧ ∀ subsystem,
      subsystem.participatesInSleep = true → faults subsystem = none) fun _ => True := by
  unfold admitSleep
  split
  · rename_i hphase
    exact .check_last trivial fun _ =>
      ⟨h, fun _ => rested_of_mode h hrunning (.inl hphase.2)⟩
  · split
    · rename_i hphase
      refine (cancelTransitionAction_shows h hsound .wake nofun).mono ?_ fun _ hlast => hlast
      exact fun _ last hlast =>
        ⟨hlast, fun _ => rested_of_mode h hrunning (.inr (.inr (.inr hphase.2)))⟩
    · exact .raised trivial

theorem beginSleep_shows (hrunning : owned.mode = .running → ∀ subsystem,
      subsystem.participatesInSleep = true → faults subsystem = none) :
    Ensures beginSleep owned (fun _ => Shows faults) fun _ => True := by
  refine .get ?_
  split
  · exact shows_of_frames frames_latest h
  · apply (admitSleep_shows h hsound hrunning).bind
    rintro _ mid ⟨hmid, hrested⟩
    refine Ensures.bind (shows_of_frames (frames_onCoordinator _) hmid) ?_
    intro _ next hnext
    refine .change (published_shows (scheduleNextSleepPreparation_shows ?_ rfl ?_))
    · exact hnext.moves rfl hrested
    · simp [EngineSubsystem.participatesInSleep]

theorem admitWake_shows (hrunning : owned.mode = .running → ∀ subsystem,
      subsystem.participatesInSleep = true → faults subsystem = none) :
    Ensures (admitWake owned) owned (fun _ last => Shows faults last ∧ ∀ subsystem,
      subsystem.participatesInSleep = true → faults subsystem = none) fun _ => True := by
  unfold admitWake
  split
  · rename_i hphase
    refine (cancelTransitionAction_shows h hsound .prepareSleep nofun).mono ?_ fun _ hlast => hlast
    exact fun _ last hlast =>
      ⟨hlast, fun _ => rested_of_mode h hrunning (.inr (.inl hphase.2))⟩
  · split
    · rename_i hphase
      exact .ret ⟨h, fun _ => rested_of_mode h hrunning (.inr (.inr (.inl hphase.2)))⟩
    · split
      · rename_i hphase
        exact .check_last trivial fun _ =>
          ⟨h, fun _ => rested_of_mode h hrunning (.inl hphase.2)⟩
      · exact .raised trivial

theorem beginWake_shows (hrunning : owned.mode = .running → ∀ subsystem,
      subsystem.participatesInSleep = true → faults subsystem = none) :
    Ensures beginWake owned (fun _ => Shows faults) fun _ => True := by
  refine .get ?_
  split
  · exact .check trivial fun _ => shows_of_frames frames_latest h
  · apply (admitWake_shows h hsound hrunning).bind
    rintro _ mid ⟨hmid, hrested⟩
    refine Ensures.bind (shows_of_frames (frames_onCoordinator _) hmid) ?_
    intro _ next hnext
    refine .change (published_shows (scheduleNextWake_shows ?_ rfl ?_))
    · exact hnext.moves rfl hrested
    · simp [EngineSubsystem.participatesInSleep]

section Stop

variable (hnone : ∀ subsystem, faults subsystem = none)
include hnone

/-- Without failures nothing recovers, so what is cancelled leaves no failure behind. -/
theorem matches_cancelPendingAction (subsystem : EngineSubsystem) :
    (owned.cancelPendingAction.records subsystem).Matches none := by
  have hrecord (other : EngineSubsystem) : (owned.records other).Matches none :=
    h.sound_record (hnone other)
  unfold cancelPendingAction
  cases hpending : owned.currentAction with
  | none => exact hrecord subsystem
  | some action =>
      show ((owned.setRecord action.subsystem _).records subsystem).Matches none
      rw [records_setRecord]
      split
      · rcases h.touched hsound hpending with ⟨-, hstate⟩ | ⟨hkind, -⟩
        · have hsilent := (hrecord action.subsystem).1
          rw [hstate] at hsilent
          cases hsilent
        · exact matches_cancelledRecord (hrecord _) hkind
      · exact hrecord subsystem

theorem startShutdown_shows (restartAfterStop : Bool) :
    Ensures (startShutdown restartAfterStop) owned (fun _ => Shows faults) fun _ => True := by
  refine .change (.through (fun _ => Shows faults)
    (shows_of_frames (frames_onCoordinator _) (.of_none hnone fun subsystem => ?_)) ?_)
  · have hshows : Shows faults { owned with restartAfterStop } := h.moves rfl h.spared
    have hsound' : Sound { owned with restartAfterStop } :=
      ⟨hsound.coordinated, hsound.shape.publishes owned.generation owned.stateRevision owned.latest
        restartAfterStop⟩
    exact matches_forgetSleep (matches_cancelPendingAction hshows hsound' hnone subsystem)
  · intro _ mid hmid
    refine .change (published_shows (scheduleNextTeardown_shows hnone ?_))
    exact hmid.moves rfl fun other _ => hnone other

omit h hsound in
theorem startRestart_shows :
    Ensures startRestart owned (fun _ => Shows faults) fun _ => True :=
  .change (published_shows (startNewLifetime_shows hnone))

theorem beginShutdownWith_shows (restartAfterStop : Bool) :
    Ensures (beginShutdownWith restartAfterStop) owned (fun _ => Shows faults) fun _ => True := by
  refine .get ?_
  split
  · split
    · exact startRestart_shows hnone
    · exact shows_of_frames frames_latest h
  · split
    · refine .put (shows_of_frames frames_latest ?_)
      split
      · exact h.moves rfl h.spared
      · exact h
    · exact startShutdown_shows h hsound hnone restartAfterStop

theorem beginRestart_shows :
    Ensures beginRestart owned (fun _ => Shows faults) fun _ => True := by
  refine .get ?_
  split
  · exact startRestart_shows hnone
  · exact beginShutdownWith_shows h hsound hnone true

end Stop

omit hsound

/-- A runtime failure is shown by the record it leaves. -/
theorem reportRuntimeFailure_shows (subsystem : EngineSubsystem) (error : Error) :
    Ensures (reportRuntimeFailure subsystem error) owned
      (fun _ => Shows (Function.update faults subsystem (some (.fromError error))))
      fun _ => True := by
  refine .get (.check trivial fun hsettled => .check trivial fun _ => .put ?_)
  have hmode : owned.mode = .running := (not_not.1 hsettled).2.1
  have hupdated := h.update subsystem (matches_failedState error
    (owned.records subsystem).ownsResources (some (.fromError subsystem error))) fun other => by
      rw [hmode]
      rfl
  have hleft : Shows _ { owned.setRecord subsystem
      ⟨failedState error, (owned.records subsystem).ownsResources,
        some (.fromError subsystem error)⟩ with
      lastFailure := some (.fromError subsystem error) } := hupdated.moves rfl hupdated.spared
  split
  · exact published_shows (failEngine_shows hleft)
  · exact shows_of_frames frames_publish hleft

/-- A recovery begins with an action for its subsystem, whose failure is shown as recovering. -/
theorem beginRecovery_shows (subsystem : EngineSubsystem) :
    Ensures (beginRecovery subsystem) owned (fun snapshot last =>
      Shows (Function.update faults subsystem
        ((faults subsystem).map fun fault => { fault with recovering := true })) last ∧
      ∃ action, snapshot.pendingAction = some action ∧ action.subsystem = subsystem ∧
        action.kind = .recover) fun _ => True := by
  refine .get (.check trivial fun hfirst => .check trivial fun _ => .put ?_)
  obtain ⟨hsettled, hstate⟩ := not_or.1 hfirst
  rw [not_not] at hsettled hstate
  have hmatches := h.records subsystem
  have hrecord : SubsystemRecord.Matches { owned.records subsystem with state := .recovering }
      ((faults subsystem).map fun fault => { fault with recovering := true }) := by
    cases hfault : faults subsystem with
    | none =>
        rw [hfault] at hmatches
        have hsilent := hmatches.1
        rw [hstate] at hsilent
        cases hsilent
    | some fault =>
        rw [hfault] at hmatches
        refine ⟨rfl, ⟨fun _ => rfl, fun _ => rfl⟩, fun hterminal => ?_⟩
        have hfailed := hmatches.2.2 hterminal
        rw [hstate] at hfailed
        cases hfailed
  have hupdated := h.update subsystem hrecord fun other => by
    rw [hsettled.2.1]
    rfl
  have hshows : Shows _ { owned.setRecord subsystem
      { owned.records subsystem with state := .recovering } with mode := .recovering } :=
    hupdated.moves rfl nofun
  refine .through (fun _ last => shown last = shown { owned.setRecord subsystem
      { owned.records subsystem with state := .recovering } with mode := .recovering } ∧
    ∃ action, last.currentAction = some action ∧ action.subsystem = subsystem ∧
      action.kind = .recover) ?_ ?_
  · exact .get (.check trivial fun _ => .put_last ⟨rfl, _, rfl, rfl, rfl⟩)
  · rintro _ mid ⟨hsame, action, hpending, haction⟩
    refine .get (.check trivial fun _ => .check trivial fun _ => .put (.ret ⟨?_, action, ?_⟩))
    · exact hshows.of_shown hsame
    · exact ⟨hpending, haction⟩

end Requests

end Engine
end Superi

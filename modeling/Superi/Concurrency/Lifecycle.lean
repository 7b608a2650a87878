import Std.Data.ExtTreeSet
import Superi.Core.Error
import Superi.Lib.Stateful

/-!
# Lifecycle — coordination of application phases

A transition begins with a new revision and completes, with another one, when every registered
participant has acknowledged it.  The phase and the revision are published together in one 64-bit
signal.  Waiting for a change and the locks around the state are left out.
-/

namespace Superi
namespace Concurrency

open Core Stateful

/-- One lifecycle phase shared by application and engine owners. -/
inductive LifecyclePhase
  | starting
  | running
  | pausing
  | paused
  | resuming
  | preparingSleep
  | sleeping
  | waking
  | stopping
  | stopped
  | failed
  deriving DecidableEq, Repr

namespace LifecyclePhase

/-- Whether every participant has to acknowledge the current revision. -/
def requiresAcknowledgement : LifecyclePhase → Bool
  | .starting | .pausing | .resuming | .preparingSleep | .waking | .stopping => true
  | _ => false

def discriminant : LifecyclePhase → Nat
  | .starting => 0
  | .running => 1
  | .pausing => 2
  | .paused => 3
  | .resuming => 4
  | .preparingSleep => 5
  | .sleeping => 6
  | .waking => 7
  | .stopping => 8
  | .stopped => 9
  | .failed => 10

/-- No other discriminant is ever stored. -/
def fromDiscriminant : Nat → LifecyclePhase
  | 0 => .starting
  | 1 => .running
  | 2 => .pausing
  | 3 => .paused
  | 4 => .resuming
  | 5 => .preparingSleep
  | 6 => .sleeping
  | 7 => .waking
  | 8 => .stopping
  | 9 => .stopped
  | _ => .failed

end LifecyclePhase

/-! ## The signal -/

/-- The largest revision that fits beside a phase. -/
def maxRevision : Nat := 2 ^ 56 - 1

/-- One coherent observation of the signal. -/
structure LifecycleSignalSnapshot where
  phase : LifecyclePhase
  revision : Nat
  deriving DecidableEq, Repr

def encodeSignal (phase : LifecyclePhase) (revision : Nat) : Nat :=
  revision * 256 + phase.discriminant

def decodeSignal (encoded : Nat) : LifecycleSignalSnapshot where
  phase := .fromDiscriminant (encoded % 256)
  revision := encoded / 256

@[simp] theorem decodeSignal_encodeSignal (phase : LifecyclePhase) (revision : Nat) :
    decodeSignal (encodeSignal phase revision) = ⟨phase, revision⟩ := by
  have hsmall : phase.discriminant < 256 := by cases phase <;> decide
  have hphase : LifecyclePhase.fromDiscriminant phase.discriminant = phase := by
    cases phase <;> rfl
  simp only [decodeSignal, encodeSignal, LifecycleSignalSnapshot.mk.injEq]
  refine ⟨?_, by omega⟩
  rw [show (revision * 256 + phase.discriminant) % 256 = phase.discriminant by omega, hphase]

/-! ## State -/

/-- A failure with the participant that reported it. -/
structure LifecycleFailure where
  participant : String
  error : Error
  deriving DecidableEq, Repr

structure LifecycleState where
  phase : LifecyclePhase
  revision : Nat
  participants : Std.ExtTreeSet String
  pending : Std.ExtTreeSet String
  wakeTarget : LifecyclePhase
  failure : Option LifecycleFailure

/-- A coherent snapshot for diagnostics and events. -/
structure LifecycleSnapshot where
  phase : LifecyclePhase
  revision : Nat
  pendingParticipants : List String
  failure : Option LifecycleFailure
  deriving DecidableEq, Repr

def LifecycleSnapshot.fromState (state : LifecycleState) : LifecycleSnapshot where
  phase := state.phase
  revision := state.revision
  pendingParticipants := state.pending.toList
  failure := state.failure

/-- The state behind the lock, and the signal beside it. -/
structure SharedLifecycle where
  state : LifecycleState
  signal : Nat

/-- A coordinator of a fixed participant set. -/
def SharedLifecycle.new (participants : Std.ExtTreeSet String) : SharedLifecycle :=
  let phase := if participants.isEmpty then LifecyclePhase.running else .starting
  { state := {
      phase
      revision := 0
      participants
      pending := if phase.requiresAcknowledgement then participants else ∅
      wakeTarget := .running
      failure := none }
    signal := encodeSignal phase 0 }

/-! ## Transitions -/

def lifecycleError (category : ErrorCategory) (recoverability : Recoverability)
    (message operation : String) : Error :=
  (Error.new category recoverability message).withContext
    ⟨"superi-concurrency.lifecycle", operation⟩

def invalidTransition : Error :=
  (lifecycleError .conflict .userCorrectable "lifecycle request conflicts with the current phase"
    "transition").withContext ⟨"superi-concurrency.lifecycle", "phase_conflict"⟩

def advanceRevision : EStateM Error LifecycleState PUnit := do
  let state ← get
  refuseIf (maxRevision < state.revision + 1) (lifecycleError .internal .terminal
    "lifecycle transition revision space is exhausted" "advance_revision")
  set { state with revision := state.revision + 1 }

/-- The phase a transition completes into. -/
def completedPhase (state : LifecycleState) : EStateM Error LifecycleState LifecyclePhase :=
  match state.phase with
  | .starting | .resuming => pure .running
  | .pausing => pure .paused
  | .preparingSleep => pure .sleeping
  | .waking => pure state.wakeTarget
  | .stopping => pure .stopped
  | _ => throw invalidTransition

def completeTransition : EStateM Error LifecycleState PUnit := do
  let state ← get
  let completed ← completedPhase state
  advanceRevision
  modify fun state => { state with phase := completed, pending := ∅ }

/-- Complete the transition once nobody is pending, and say whether that happened. -/
def completeIfSettled : EStateM Error LifecycleState Bool := do
  let state ← get
  if state.pending.isEmpty then do
    completeTransition
    return true
  else return false

def beginTransition (phase : LifecyclePhase) : EStateM Error LifecycleState Bool := do
  advanceRevision
  modify fun state => { state with phase, pending := state.participants }
  let _ ← completeIfSettled
  return true

/-- Remember where waking leads to, and begin a transition. -/
def beginTowards (wakeTarget phase : LifecyclePhase) : EStateM Error LifecycleState Bool := do
  modify fun state => { state with wakeTarget }
  beginTransition phase

/-- Change the owned state, and publish the signal if something changed. -/
def update (operation : String) (body : EStateM Error LifecycleState Bool) :
    EStateM Error SharedLifecycle LifecycleSnapshot := fun shared =>
  match body shared.state with
  | .error error state =>
      .error (error.withContext ⟨"superi-concurrency.lifecycle", operation⟩) { shared with state }
  | .ok changed state =>
      .ok (.fromState state) {
        state
        signal := if changed then encodeSignal state.phase state.revision else shared.signal }

/-! ## Requests -/

def requestPause : EStateM Error SharedLifecycle LifecycleSnapshot :=
  update "request_pause" do
    let state ← get
    match state.phase with
    | .running | .starting | .resuming => beginTransition .pausing
    | .waking => beginTowards .paused .waking
    | .pausing | .paused => return false
    | _ => throw invalidTransition

def requestResume : EStateM Error SharedLifecycle LifecycleSnapshot :=
  update "request_resume" do
    let state ← get
    match state.phase with
    | .paused | .pausing => beginTransition .resuming
    | .waking => beginTowards .running .waking
    | .running | .resuming => return false
    | _ => throw invalidTransition

def requestSleep : EStateM Error SharedLifecycle LifecycleSnapshot :=
  update "request_sleep" do
    let state ← get
    match state.phase with
    | .starting | .running | .resuming => beginTowards .running .preparingSleep
    | .pausing | .paused => beginTowards .paused .preparingSleep
    | .waking => beginTransition .preparingSleep
    | .preparingSleep | .sleeping => return false
    | _ => throw invalidTransition

def requestWake : EStateM Error SharedLifecycle LifecycleSnapshot :=
  update "request_wake" do
    let state ← get
    match state.phase with
    | .preparingSleep | .sleeping => beginTransition .waking
    | .starting | .running | .resuming => beginTowards .running .waking
    | .pausing | .paused => beginTowards .paused .waking
    | .waking => return false
    | _ => throw invalidTransition

def requestShutdown : EStateM Error SharedLifecycle LifecycleSnapshot :=
  update "request_shutdown" do
    let state ← get
    match state.phase with
    | .stopping | .stopped => return false
    | _ => beginTransition .stopping

def requestRestart : EStateM Error SharedLifecycle LifecycleSnapshot :=
  update "request_restart" do
    let state ← get
    refuseIf (state.phase ≠ .stopped) invalidTransition
    set { state with failure := none, wakeTarget := .running }
    beginTransition .starting

/-! ## Participants -/

/-- Whether a participant was still pending; it no longer is. -/
def removePending (participant : String) : EStateM Error LifecycleState Bool := do
  let state ← get
  set { state with pending := state.pending.erase participant }
  return state.pending.contains participant

def acknowledge (participant : String) (observed : LifecycleSignalSnapshot) :
    EStateM Error SharedLifecycle LifecycleSnapshot :=
  update "acknowledge" do
    let state ← get
    refuseIf (state.phase ≠ observed.phase ∨ state.revision ≠ observed.revision)
      ((lifecycleError .conflict .retryable
        "lifecycle acknowledgement refers to a stale transition" "acknowledge").withContext
        ⟨"superi-concurrency.lifecycle", "stale_acknowledgement"⟩)
    refuseIf (state.phase.requiresAcknowledgement = false) invalidTransition
    let removed ← removePending participant
    if removed then completeIfSettled else return false

def fail (participant : String) (error : Error) :
    EStateM Error SharedLifecycle LifecycleSnapshot :=
  update "fail" do
    let state ← get
    refuseIf (state.phase = .stopped) invalidTransition
    advanceRevision
    modify fun state => { state with
      phase := .failed, pending := ∅, failure := some ⟨participant, error⟩ }
    return true

end Concurrency
end Superi

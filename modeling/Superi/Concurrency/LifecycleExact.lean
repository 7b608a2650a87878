import Superi.Concurrency.Lifecycle
import Superi.Lib.Machine

/-!
# LifecycleExact — what a coordinator's calls can do over whole runs

A call is refused and changes nothing, or it makes one of a few moves: it begins a transition,
records an acknowledgement, settles the transition everybody acknowledged, or records a failure.  A
run remembers the calls that were accepted, so that what completes a transition and where waking
leads to can be read off its history.
-/

namespace Superi
namespace Concurrency

open Core Stateful

/-! ## Phases -/

namespace LifecyclePhase

/-- Phases of a lifetime that is ending or has ended. -/
def isTeardown : LifecyclePhase → Bool
  | .stopping | .stopped | .failed => true
  | _ => false

/-- The phase a transition settles in, where waking leads to `wakeTarget`. -/
def settled (phase wakeTarget : LifecyclePhase) : LifecyclePhase :=
  match phase with
  | .starting | .resuming => .running
  | .pausing => .paused
  | .preparingSleep => .sleeping
  | .waking => wakeTarget
  | _ => .stopped

theorem isTeardown_settled {phase wakeTarget : LifecyclePhase} (h : phase.isTeardown = true) :
    (phase.settled wakeTarget).isTeardown = true := by
  cases phase with
  | stopping => rfl
  | stopped => rfl
  | failed => rfl
  | _ => cases h

end LifecyclePhase

/-! ## Calls -/

/-- A request to the coordinator, or a call of one participant. -/
inductive LifecycleCall
  | pause
  | resume
  | sleep
  | wake
  | shutdown
  | restart
  | acknowledge (participant : String) (observed : LifecycleSignalSnapshot)
  | fail (participant : String) (error : Error)

def LifecycleCall.perform : LifecycleCall → EStateM Error SharedLifecycle LifecycleSnapshot
  | .pause => requestPause
  | .resume => requestResume
  | .sleep => requestSleep
  | .wake => requestWake
  | .shutdown => requestShutdown
  | .restart => requestRestart
  | .acknowledge participant observed => Concurrency.acknowledge participant observed
  | .fail participant error => Concurrency.fail participant error

/-- What the last accepted request of this lifetime to pause or resume asks for. -/
def lastIntent : List LifecycleCall → LifecyclePhase
  | [] => .running
  | .pause :: _ => .paused
  | .resume :: _ => .running
  | .restart :: _ => .running
  | _ :: earlier => lastIntent earlier

theorem lastIntent_cases (accepted : List LifecycleCall) :
    lastIntent accepted = .running ∨ lastIntent accepted = .paused := by
  induction accepted with
  | nil => exact .inl rfl
  | cons call earlier ih =>
      cases call with
      | pause => exact .inr rfl
      | resume => exact .inl rfl
      | restart => exact .inl rfl
      | sleep => exact ih
      | wake => exact ih
      | shutdown => exact ih
      | acknowledge participant observed => exact ih
      | fail participant error => exact ih

/-- A phase and a wake target agree with the intent. -/
def Intends (phase wakeTarget intent : LifecyclePhase) : Prop :=
  match phase with
  | .pausing | .paused => intent = .paused
  | .starting | .running | .resuming => intent = .running
  | .preparingSleep | .sleeping | .waking => wakeTarget = intent
  | .stopping | .stopped | .failed => True

/-- Settling keeps the intent. -/
theorem Intends.settled {phase wakeTarget intent : LifecyclePhase}
    (h : Intends phase wakeTarget intent) (hwaits : phase.requiresAcknowledgement = true)
    (hintent : intent = .running ∨ intent = .paused) :
    Intends (phase.settled wakeTarget) wakeTarget intent := by
  cases phase with
  | waking =>
      obtain rfl : wakeTarget = intent := h
      obtain rfl | rfl := hintent
      · exact rfl
      · exact rfl
  | starting => exact h
  | pausing => exact h
  | resuming => exact h
  | preparingSleep => exact h
  | stopping => trivial
  | running => cases hwaits
  | paused => cases hwaits
  | sleeping => cases hwaits
  | stopped => cases hwaits
  | failed => cases hwaits

/-- A settled phase waits for nobody. -/
theorem Intends.settled_waits {phase wakeTarget intent : LifecyclePhase}
    (h : Intends phase wakeTarget intent) (hintent : intent = .running ∨ intent = .paused) :
    (phase.settled wakeTarget).requiresAcknowledgement = false := by
  cases phase with
  | waking =>
      obtain rfl : wakeTarget = intent := h
      obtain rfl | rfl := hintent
      · exact rfl
      · exact rfl
  | _ => rfl

/-! ## Moves -/

/-- The call keeps the intent of whoever made the calls before it. -/
def KeepsIntent (call : LifecycleCall) (before : LifecycleState)
    (phase wakeTarget : LifecyclePhase) : Prop :=
  ∀ accepted, Intends before.phase before.wakeTarget (lastIntent accepted) →
    Intends phase wakeTarget (lastIntent (call :: accepted))

/-- What a request may ask for in a state. -/
structure Asks (call : LifecycleCall) (before : LifecycleState)
    (wakeTarget phase : LifecyclePhase) : Prop where
  waits : phase.requiresAcknowledgement = true
  keeps_intent : KeepsIntent call before phase wakeTarget
  keeps_teardown : before.phase.isTeardown = true →
    phase.isTeardown = true ∨ before.phase = .stopped ∧ call = .restart
  wakes : call = .wake → phase = .waking

/-- The moves of a call that is accepted. -/
inductive Moves (call : LifecycleCall) (before : LifecycleState) : LifecycleState → Prop
  | idles (hintent : KeepsIntent call before before.phase before.wakeTarget) :
      Moves call before before
  | begins {wakeTarget phase : LifecyclePhase} {failure : Option LifecycleFailure}
      (hasks : Asks call before wakeTarget phase) (hsome : before.participants.isEmpty = false) :
      Moves call before { before with
        revision := before.revision + 1, phase, pending := before.participants, wakeTarget, failure }
  | passes {wakeTarget phase : LifecyclePhase} {failure : Option LifecycleFailure}
      (hasks : Asks call before wakeTarget phase) (hnone : before.participants.isEmpty = true) :
      Moves call before { before with
        revision := before.revision + 2, phase := phase.settled wakeTarget, pending := ∅, wakeTarget, failure }
  | acknowledges {participant : String}
      (hcall : call = .acknowledge participant ⟨before.phase, before.revision⟩)
      (hwaits : before.phase.requiresAcknowledgement = true)
      (hsome : (before.pending.erase participant).isEmpty = false) :
      Moves call before { before with pending := before.pending.erase participant }
  | settles {participant : String}
      (hcall : call = .acknowledge participant ⟨before.phase, before.revision⟩)
      (hwaits : before.phase.requiresAcknowledgement = true)
      (hnone : (before.pending.erase participant).isEmpty = true) :
      Moves call before { before with
        revision := before.revision + 1, phase := before.phase.settled before.wakeTarget, pending := ∅ }
  | fails {participant : String} {error : Error} (hcall : call = .fail participant error) :
      Moves call before { before with
        revision := before.revision + 1, phase := .failed, pending := ∅,
        failure := some ⟨participant, error⟩ }

/-! ## Steps of a transition -/

theorem advanceRevision_succeeds {state : LifecycleState} {post : PUnit → LifecycleState → Prop}
    (hroom : state.revision + 1 ≤ maxRevision)
    (h : post ⟨⟩ { state with revision := state.revision + 1 }) :
    Succeeds advanceRevision state post := by
  apply Succeeds.get
  apply Succeeds.passes (by omega)
  exact ⟨⟨⟩, _, rfl, h⟩

theorem completedPhase_succeeds {state : LifecycleState}
    (hwaits : state.phase.requiresAcknowledgement = true) :
    Succeeds (completedPhase state) state fun completed last =>
      completed = state.phase.settled state.wakeTarget ∧ last = state := by
  unfold completedPhase LifecyclePhase.settled
  cases hphase : state.phase with
  | running => rw [hphase] at hwaits; cases hwaits
  | paused => rw [hphase] at hwaits; cases hwaits
  | sleeping => rw [hphase] at hwaits; cases hwaits
  | stopped => rw [hphase] at hwaits; cases hwaits
  | failed => rw [hphase] at hwaits; cases hwaits
  | starting => exact .ret ⟨rfl, rfl⟩
  | resuming => exact .ret ⟨rfl, rfl⟩
  | pausing => exact .ret ⟨rfl, rfl⟩
  | preparingSleep => exact .ret ⟨rfl, rfl⟩
  | waking => exact .ret ⟨rfl, rfl⟩
  | stopping => exact .ret ⟨rfl, rfl⟩

theorem completeTransition_succeeds {state : LifecycleState}
    (hwaits : state.phase.requiresAcknowledgement = true)
    (hroom : state.revision + 1 ≤ maxRevision) :
    Succeeds completeTransition state fun _ last => last = { state with
      revision := state.revision + 1
      phase := state.phase.settled state.wakeTarget
      pending := ∅ } := by
  apply Succeeds.get
  apply (completedPhase_succeeds hwaits).bind
  rintro completed current ⟨rfl, rfl⟩
  apply Succeeds.through (fun _ last => last = { current with revision := current.revision + 1 })
  · exact advanceRevision_succeeds hroom rfl
  · rintro _ last rfl
    exact .change_last rfl

/-- A state whose pending set is not empty waits; otherwise its transition completes. -/
theorem completeIfSettled_succeeds {state : LifecycleState}
    (hwaits : state.phase.requiresAcknowledgement = true)
    (hroom : state.pending.isEmpty = true → state.revision + 1 ≤ maxRevision) :
    Succeeds completeIfSettled state fun changed last =>
      state.pending.isEmpty = true ∧ changed = true ∧ last = { state with
        revision := state.revision + 1
        phase := state.phase.settled state.wakeTarget
        pending := ∅ } ∨
      state.pending.isEmpty = false ∧ changed = false ∧ last = state := by
  apply Succeeds.get
  by_cases hnone : state.pending.isEmpty = true
  · rw [if_pos hnone]
    apply (completeTransition_succeeds hwaits (hroom hnone)).bind
    rintro _ last rfl
    exact .ret (.inl ⟨hnone, rfl, rfl⟩)
  · rw [if_neg hnone]
    exact .ret (.inr ⟨by simpa using hnone, rfl, rfl⟩)

/-- A request has room when the revisions it may take are left. -/
def RoomToRequest (state : LifecycleState) : Prop :=
  state.revision + (if state.participants.isEmpty then 2 else 1) ≤ maxRevision

/-- A call is refused, or it makes a move; it says when the phase or the revision changed. -/
def Performs (call : LifecycleCall) (body : EStateM Error LifecycleState Bool)
    (before : LifecycleState) : Prop :=
  Rejects body before ∨ Succeeds body before fun changed last =>
    Moves call before last ∧
      (changed = false → last.phase = before.phase ∧ last.revision = before.revision)

/-! ## Requests -/

section Requests

variable {call : LifecycleCall} {before : LifecycleState}

theorem Performs.refuses {error : Error} : Performs call (throw error) before := .inl (.raised error)

theorem Performs.idles (hintent : KeepsIntent call before before.phase before.wakeTarget) :
    Performs call (pure false) before := .inr (.ret ⟨.idles hintent, fun _ => ⟨rfl, rfl⟩⟩)

/-- A transition begins, and settles at once when nobody has to acknowledge it. -/
theorem beginTransition_succeeds {phase : LifecyclePhase} (hroom : RoomToRequest before)
    (hwaits : phase.requiresAcknowledgement = true) :
    Succeeds (beginTransition phase) before fun changed last => changed = true ∧
      (before.participants.isEmpty = true ∧ last = { before with
        revision := before.revision + 2, phase := phase.settled before.wakeTarget, pending := ∅ } ∨
      before.participants.isEmpty = false ∧ last = { before with
        revision := before.revision + 1, phase, pending := before.participants }) := by
  unfold RoomToRequest at hroom
  apply Succeeds.through (fun _ last => last = { before with revision := before.revision + 1 })
  · exact advanceRevision_succeeds (by split at hroom <;> omega) rfl
  rintro _ last rfl
  apply Succeeds.change
  apply (completeIfSettled_succeeds hwaits ?_).bind
  · rintro _ last (⟨hnone, -, rfl⟩ | ⟨hsome, -, rfl⟩)
    · exact .ret ⟨rfl, .inl ⟨hnone, rfl⟩⟩
    · exact .ret ⟨rfl, .inr ⟨hsome, rfl⟩⟩
  · intro hnone
    change before.participants.isEmpty = true at hnone
    rw [hnone, if_pos rfl] at hroom
    exact hroom

/-- A request that begins a transition, after it set where waking leads to. -/
theorem beginTransition_moves {wakeTarget phase : LifecyclePhase}
    {failure : Option LifecycleFailure} (hroom : RoomToRequest before)
    (hasks : Asks call before wakeTarget phase) :
    Succeeds (beginTransition phase) { before with wakeTarget, failure } fun changed last =>
      Moves call before last ∧ changed = true := by
  have hroom' : RoomToRequest { before with wakeTarget, failure } := hroom
  apply (beginTransition_succeeds hroom' hasks.waits).mono
  rintro _ last ⟨rfl, ⟨hnone, rfl⟩ | ⟨hsome, rfl⟩⟩
  · exact ⟨.passes hasks hnone, rfl⟩
  · exact ⟨.begins hasks hsome, rfl⟩

theorem Performs.begins {phase : LifecyclePhase} (hroom : RoomToRequest before)
    (hasks : Asks call before before.wakeTarget phase) :
    Performs call (beginTransition phase) before := by
  right
  apply (beginTransition_moves hroom hasks).mono
  rintro _ last ⟨hmoves, rfl⟩
  exact ⟨hmoves, fun hsame => nomatch hsame⟩

theorem Performs.beginsTowards {wakeTarget phase : LifecyclePhase} (hroom : RoomToRequest before)
    (hasks : Asks call before wakeTarget phase) :
    Performs call (beginTowards wakeTarget phase) before := by
  right
  apply Succeeds.change
  apply (beginTransition_moves hroom hasks).mono
  rintro _ last ⟨hmoves, rfl⟩
  exact ⟨hmoves, fun hsame => nomatch hsame⟩

theorem Performs.get {next : LifecycleState → EStateM Error LifecycleState Bool}
    (h : Performs call (next before) before) : Performs call (MonadState.get >>= next) before :=
  h.imp .get .get

/-- A call of the coordinator is refused and changes nothing, or makes a move and publishes it. -/
def Answers (call : LifecycleCall) (shared : SharedLifecycle) : Prop :=
  Rejects call.perform shared ∨ Succeeds call.perform shared fun _ last =>
    Moves call shared.state last.state ∧
      (last.signal = encodeSignal last.state.phase last.state.revision ∨
        last.signal = shared.signal ∧ last.state.phase = shared.state.phase ∧
          last.state.revision = shared.state.revision)

theorem update_performs {shared : SharedLifecycle} {operation : String}
    {body : EStateM Error LifecycleState Bool} (hcall : call.perform = update operation body)
    (h : Performs call body shared.state) : Answers call shared := by
  rw [Answers, hcall]
  obtain ⟨error, hbody⟩ | ⟨changed, last, hbody, hmoves, hsame⟩ := h
  · left
    refine ⟨error.withContext ⟨"superi-concurrency.lifecycle", operation⟩, ?_⟩
    simp only [update, hbody]
  · right
    have hupdate : update operation body shared = .ok (.fromState last) ⟨last,
        if changed then encodeSignal last.phase last.revision else shared.signal⟩ := by
      simp only [update, hbody]
    refine ⟨_, _, hupdate, hmoves, ?_⟩
    cases changed with
    | true => exact .inl rfl
    | false => exact .inr ⟨rfl, hsame rfl⟩

end Requests

/-! ## Every call -/

section Calls

variable {shared : SharedLifecycle}

theorem requestPause_performs (hroom : RoomToRequest shared.state) :
    Answers .pause shared := by
  apply update_performs rfl
  apply Performs.get
  split
  all_goals rename_i hphase
  · exact .begins hroom ⟨rfl, fun _ _ => rfl, by rw [hphase]; exact nofun, nofun⟩
  · exact .begins hroom ⟨rfl, fun _ _ => rfl, by rw [hphase]; exact nofun, nofun⟩
  · exact .begins hroom ⟨rfl, fun _ _ => rfl, by rw [hphase]; exact nofun, nofun⟩
  · exact .beginsTowards hroom ⟨rfl, fun _ _ => rfl, by rw [hphase]; exact nofun, nofun⟩
  · exact .idles (by rw [hphase]; exact fun _ _ => rfl)
  · exact .idles (by rw [hphase]; exact fun _ _ => rfl)
  · exact .refuses

theorem requestResume_performs (hroom : RoomToRequest shared.state) :
    Answers .resume shared := by
  apply update_performs rfl
  apply Performs.get
  split
  all_goals rename_i hphase
  · exact .begins hroom ⟨rfl, fun _ _ => rfl, by rw [hphase]; exact nofun, nofun⟩
  · exact .begins hroom ⟨rfl, fun _ _ => rfl, by rw [hphase]; exact nofun, nofun⟩
  · exact .beginsTowards hroom ⟨rfl, fun _ _ => rfl, by rw [hphase]; exact nofun, nofun⟩
  · exact .idles (by rw [hphase]; exact fun _ _ => rfl)
  · exact .idles (by rw [hphase]; exact fun _ _ => rfl)
  · exact .refuses

theorem requestSleep_performs (hroom : RoomToRequest shared.state) :
    Answers .sleep shared := by
  apply update_performs rfl
  apply Performs.get
  -- from a phase that agrees with the intent, the request remembers the intent
  have hremembers : ∀ {phase wakeTarget}, shared.state.phase = phase → phase.isTeardown = false →
      (∀ intent, Intends phase shared.state.wakeTarget intent → wakeTarget = intent) →
      Performs .sleep (beginTowards wakeTarget .preparingSleep) shared.state := by
    rintro _ wakeTarget rfl hlive hintent
    exact .beginsTowards hroom
      ⟨rfl, fun _ => hintent _, fun hdown => by simp [hlive] at hdown, nofun⟩
  split
  all_goals rename_i hphase
  · exact hremembers hphase rfl fun _ h => h.symm
  · exact hremembers hphase rfl fun _ h => h.symm
  · exact hremembers hphase rfl fun _ h => h.symm
  · exact hremembers hphase rfl fun _ h => h.symm
  · exact hremembers hphase rfl fun _ h => h.symm
  · exact .begins hroom
      ⟨rfl, by rw [KeepsIntent, hphase]; exact fun _ h => h, by rw [hphase]; exact nofun, nofun⟩
  · exact .idles (by rw [KeepsIntent, hphase]; exact fun _ h => h)
  · exact .idles (by rw [KeepsIntent, hphase]; exact fun _ h => h)
  · exact .refuses

theorem requestWake_performs (hroom : RoomToRequest shared.state) : Answers .wake shared := by
  apply update_performs rfl
  apply Performs.get
  have hremembers : ∀ {phase wakeTarget}, shared.state.phase = phase → phase.isTeardown = false →
      (∀ intent, Intends phase shared.state.wakeTarget intent → wakeTarget = intent) →
      Performs .wake (beginTowards wakeTarget .waking) shared.state := by
    rintro _ wakeTarget rfl hlive hintent
    exact .beginsTowards hroom
      ⟨rfl, fun _ => hintent _, fun hdown => by simp [hlive] at hdown, fun _ => rfl⟩
  split
  all_goals rename_i hphase
  · exact .begins hroom ⟨rfl, by rw [KeepsIntent, hphase]; exact fun _ h => h,
      by rw [hphase]; exact nofun, fun _ => rfl⟩
  · exact .begins hroom ⟨rfl, by rw [KeepsIntent, hphase]; exact fun _ h => h,
      by rw [hphase]; exact nofun, fun _ => rfl⟩
  · exact hremembers hphase rfl fun _ h => h.symm
  · exact hremembers hphase rfl fun _ h => h.symm
  · exact hremembers hphase rfl fun _ h => h.symm
  · exact hremembers hphase rfl fun _ h => h.symm
  · exact hremembers hphase rfl fun _ h => h.symm
  · exact .idles (by rw [KeepsIntent, hphase]; exact fun _ h => h)
  · exact .refuses

theorem requestShutdown_performs (hroom : RoomToRequest shared.state) :
    Answers .shutdown shared := by
  apply update_performs rfl
  apply Performs.get
  split
  · rename_i hphase
    exact .idles (by rw [KeepsIntent, hphase]; exact fun _ h => h)
  · rename_i hphase
    exact .idles (by rw [KeepsIntent, hphase]; exact fun _ h => h)
  · exact .begins hroom ⟨rfl, fun _ _ => trivial, fun _ => .inl rfl, nofun⟩

theorem requestRestart_performs (hroom : RoomToRequest shared.state) :
    Answers .restart shared := by
  apply update_performs rfl
  apply Performs.get
  by_cases hstopped : shared.state.phase = .stopped
  · right
    apply Succeeds.passes (by simpa using hstopped)
    apply Succeeds.put
    have hasks : Asks .restart shared.state .running .starting :=
      ⟨rfl, fun _ _ => rfl, fun _ => .inr ⟨hstopped, rfl⟩, nofun⟩
    apply (beginTransition_moves hroom hasks).mono
    rintro _ last ⟨hmoves, rfl⟩
    exact ⟨hmoves, fun hsame => nomatch hsame⟩
  · exact .inl (.fails hstopped)

theorem fail_performs {participant : String} {error : Error}
    (hroom : shared.state.revision + 1 ≤ maxRevision) :
    Answers (.fail participant error) shared := by
  apply update_performs rfl
  apply Performs.get
  by_cases hstopped : shared.state.phase = .stopped
  · exact .inl (.fails hstopped)
  · right
    apply Succeeds.passes hstopped
    apply Succeeds.bind (advanceRevision_succeeds hroom rfl : Succeeds _ _ fun _ last =>
      last = { shared.state with revision := shared.state.revision + 1 })
    rintro _ last rfl
    apply Succeeds.change
    exact .ret ⟨.fails rfl, fun hsame => nomatch hsame⟩

/-- An acknowledgement of the current transition removes its participant from the pending ones. -/
theorem acknowledge_performs {participant : String} {observed : LifecycleSignalSnapshot}
    (hroom : shared.state.revision + 1 ≤ maxRevision) :
    Answers (.acknowledge participant observed) shared := by
  apply update_performs rfl
  apply Performs.get
  by_cases hstale : shared.state.phase ≠ observed.phase ∨ shared.state.revision ≠ observed.revision
  · exact .inl (.fails hstale)
  by_cases hsettled : shared.state.phase.requiresAcknowledgement = false
  · exact .inl (.passes hstale (.fails hsettled))
  right
  apply Succeeds.passes hstale
  apply Succeeds.passes hsettled
  apply Succeeds.through (fun removed last =>
    removed = shared.state.pending.contains participant ∧
      last = { shared.state with pending := shared.state.pending.erase participant })
  · exact ⟨_, _, rfl, rfl, rfl⟩
  rintro removed current ⟨rfl, hcurrent⟩
  have hobserved : observed = ⟨shared.state.phase, shared.state.revision⟩ := by
    simp only [not_or, not_not] at hstale
    rw [hstale.1, hstale.2]
  have hwaits : shared.state.phase.requiresAcknowledgement = true := by simpa using hsettled
  by_cases hmem : shared.state.pending.contains participant = true
  · rw [if_pos hmem]
    have hcomplete : Succeeds completeIfSettled current _ :=
      completeIfSettled_succeeds (by rw [hcurrent]; exact hwaits) fun _ => by rw [hcurrent]; exact hroom
    apply hcomplete.mono
    subst hcurrent
    rintro _ last (⟨hnone, rfl, rfl⟩ | ⟨hsome, rfl, rfl⟩)
    · exact ⟨.settles (by rw [hobserved]) hwaits hnone, fun hsame => nomatch hsame⟩
    · exact ⟨.acknowledges (by rw [hobserved]) hwaits hsome, fun _ => ⟨rfl, rfl⟩⟩
  · rw [if_neg hmem]
    have hsame : shared.state.pending.erase participant = shared.state.pending := by
      apply Std.ExtTreeSet.ext_mem
      intro other
      rw [Std.ExtTreeSet.mem_erase]
      refine ⟨And.right, fun h => ⟨fun hequal => ?_, h⟩⟩
      rw [Std.LawfulEqCmp.eq_of_compare hequal] at hmem
      exact hmem (Std.ExtTreeSet.contains_iff_mem.2 h)
    rw [hcurrent, hsame]
    exact .ret ⟨.idles fun _ h => h, fun _ => ⟨rfl, rfl⟩⟩

end Calls

/-- The revisions a call may take: beginning a transition takes one, and settling it another. -/
def LifecycleCall.revisions (participants : Std.ExtTreeSet String) : LifecycleCall → Nat
  | .acknowledge _ _ | .fail _ _ => 1
  | _ => if participants.isEmpty then 2 else 1

/-- With room for its revisions, every call is refused or makes a move. -/
theorem perform_answers {call : LifecycleCall} {shared : SharedLifecycle}
    (hroom : shared.state.revision + call.revisions shared.state.participants ≤ maxRevision) :
    Answers call shared := by
  cases call with
  | pause => exact requestPause_performs hroom
  | resume => exact requestResume_performs hroom
  | sleep => exact requestSleep_performs hroom
  | wake => exact requestWake_performs hroom
  | shutdown => exact requestShutdown_performs hroom
  | restart => exact requestRestart_performs hroom
  | acknowledge participant observed => exact acknowledge_performs hroom
  | fail participant error => exact fail_performs hroom

/-! ## Recorded runs -/

/-- A coordinator with the calls it accepted, the latest first. -/
structure Recorded where
  shared : SharedLifecycle
  accepted : List LifecycleCall

namespace Recorded

def start (participants : Std.ExtTreeSet String) : Recorded := ⟨.new participants, []⟩

/-- Every call leads somewhere; the accepted ones are recorded. -/
def step (recorded : Recorded) (call : LifecycleCall) : Option Recorded :=
  match call.perform recorded.shared with
  | .ok _ shared => some ⟨shared, call :: recorded.accepted⟩
  | .error _ shared => some ⟨shared, recorded.accepted⟩

/-- The revisions a call may take are left. -/
def HasRoom (recorded : Recorded) (call : LifecycleCall) : Prop :=
  recorded.shared.state.revision + call.revisions recorded.shared.state.participants ≤ maxRevision

instance (recorded : Recorded) (call : LifecycleCall) : Decidable (recorded.HasRoom call) :=
  inferInstanceAs (Decidable (_ ≤ _))

/-- What holds of a coordinator between two calls. -/
structure Sound (recorded : Recorded) : Prop where
  signal_eq : recorded.shared.signal =
    encodeSignal recorded.shared.state.phase recorded.shared.state.revision
  waits : recorded.shared.state.phase.requiresAcknowledgement = true →
    recorded.shared.state.participants.isEmpty = false
  acknowledged : recorded.shared.state.phase.requiresAcknowledgement = true →
    ∀ participant ∈ recorded.shared.state.participants,
      participant ∉ recorded.shared.state.pending →
        .acknowledge participant ⟨recorded.shared.state.phase, recorded.shared.state.revision⟩ ∈
          recorded.accepted
  intends : Intends recorded.shared.state.phase recorded.shared.state.wakeTarget
    (lastIntent recorded.accepted)

/-- What one step does, whatever the call. -/
structure Exact (before : Recorded) (call : LifecycleCall) (after : Recorded) : Prop where
  /-- The published signal is the owned phase and revision. -/
  signal_eq : after.shared.signal =
    encodeSignal after.shared.state.phase after.shared.state.revision
  /-- Revisions strictly increase: a phase never changes without a later revision. -/
  revision_increases :
    after.shared.state.phase = before.shared.state.phase ∧
      after.shared.state.revision = before.shared.state.revision ∨
    before.shared.state.revision < after.shared.state.revision
  /-- A call that returns an error leaves everything as it was. -/
  refused : ∀ error last, call.perform before.shared = .error error last → last = before.shared
  /-- A transition settles when every participant acknowledged its phase and revision. -/
  settles : after.shared.state.phase.requiresAcknowledgement = false →
    after.shared.state.phase ≠ .failed →
    after.shared.state.revision ≠ before.shared.state.revision →
    ∀ participant ∈ before.shared.state.participants,
      .acknowledge participant ⟨before.shared.state.phase, before.shared.state.revision⟩ ∈
        after.accepted
  /-- Waking settles where the last accepted request to pause or resume wants it. -/
  wakes : before.shared.state.phase = .waking ∨ call = .wake →
    after.shared.state.phase.requiresAcknowledgement = false →
    after.shared.state.phase ≠ .failed →
    after.shared.state.revision ≠ before.shared.state.revision →
    after.shared.state.phase = lastIntent after.accepted
  /-- The intent also holds wherever work is paused or running. -/
  intends : (after.shared.state.phase = .paused → lastIntent after.accepted = .paused) ∧
    (after.shared.state.phase = .running → lastIntent after.accepted = .running)
  /-- Once stopping begins, only a restart leaves stopping, stopped and failed. -/
  stops : before.shared.state.phase.isTeardown = true → after.shared.state.phase.isTeardown = true ∨
    before.shared.state.phase = .stopped ∧ call = .restart

theorem start_sound (participants : Std.ExtTreeSet String) : (start participants).Sound := by
  unfold start SharedLifecycle.new
  by_cases hnone : participants.isEmpty = true
  · simp only [hnone, if_true]
    exact ⟨rfl, nofun, nofun, rfl⟩
  · simp only [hnone]
    refine ⟨rfl, fun _ => by simpa using hnone, fun _ participant hmem hpending => ?_, rfl⟩
    exact absurd hmem hpending

/-- Whoever is not pending after an acknowledgement has acknowledged. -/
theorem Sound.acknowledged_after {recorded : Recorded} {participant : String} (h : recorded.Sound)
    (hwaits : recorded.shared.state.phase.requiresAcknowledgement = true)
    {call : LifecycleCall} (hcall : call =
      .acknowledge participant ⟨recorded.shared.state.phase, recorded.shared.state.revision⟩)
    {other : String} (hmem : other ∈ recorded.shared.state.participants)
    (hdone : other ∉ recorded.shared.state.pending.erase participant) :
    .acknowledge other ⟨recorded.shared.state.phase, recorded.shared.state.revision⟩ ∈
      call :: recorded.accepted := by
  by_cases hself : other = participant
  · rw [hself, hcall]
    exact List.mem_cons_self
  · apply List.mem_cons_of_mem
    apply h.acknowledged hwaits other hmem
    intro hpending
    apply hdone
    rw [Std.ExtTreeSet.mem_erase]
    exact ⟨fun hequal => hself (Std.LawfulEqCmp.eq_of_compare hequal).symm, hpending⟩

variable {before : Recorded} {call : LifecycleCall} {last : SharedLifecycle}

theorem Sound.move (h : before.Sound) (hmoves : Moves call before.shared.state last.state)
    (hsignal : last.signal = encodeSignal last.state.phase last.state.revision) :
    Sound ⟨last, call :: before.accepted⟩ := by
  obtain ⟨state, signal⟩ := last
  dsimp only at hmoves hsignal
  cases hmoves with
  | idles hintent =>
      exact ⟨hsignal, h.waits, fun hwaits participant hmem hdone =>
        List.mem_cons_of_mem call (h.acknowledged hwaits participant hmem hdone), hintent _ h.intends⟩
  | begins hasks hsome =>
      exact ⟨hsignal, fun _ => hsome, fun _ participant hmem hdone => absurd hmem hdone,
        hasks.keeps_intent _ h.intends⟩
  | passes hasks hnone =>
      have hintends := hasks.keeps_intent _ h.intends
      have hsettled := hintends.settled_waits (lastIntent_cases _)
      refine ⟨hsignal, fun hwaits => ?_, fun hwaits => ?_, ?_⟩
      · rw [hsettled] at hwaits
        cases hwaits
      · rw [hsettled] at hwaits
        cases hwaits
      · exact hintends.settled hasks.waits (lastIntent_cases _)
  | acknowledges hcall hwaits hsome =>
      refine ⟨hsignal, fun _ => h.waits hwaits, fun _ other hmem hdone => ?_, ?_⟩
      · exact h.acknowledged_after hwaits hcall hmem hdone
      · rw [hcall]
        exact h.intends
  | settles hcall hwaits hnone =>
      have hsettled := h.intends.settled_waits (lastIntent_cases _)
      refine ⟨hsignal, fun hwaits => ?_, fun hwaits => ?_, ?_⟩
      · rw [hsettled] at hwaits
        cases hwaits
      · rw [hsettled] at hwaits
        cases hwaits
      · rw [hcall]
        exact h.intends.settled hwaits (lastIntent_cases _)
  | fails hcall => exact ⟨hsignal, nofun, nofun, trivial⟩

theorem Sound.paused_or_running {recorded : Recorded} (h : recorded.Sound) :
    (recorded.shared.state.phase = .paused → lastIntent recorded.accepted = .paused) ∧
      (recorded.shared.state.phase = .running → lastIntent recorded.accepted = .running) := by
  have hintends := h.intends
  constructor
  · intro hphase
    rw [hphase] at hintends
    exact hintends
  · intro hphase
    rw [hphase] at hintends
    exact hintends

theorem Sound.exact_of_refused (h : before.Sound)
    (hrefused : ∃ error, call.perform before.shared = .error error before.shared) :
    Exact before call before where
  signal_eq := h.signal_eq
  revision_increases := .inl ⟨rfl, rfl⟩
  refused error last hperform := by
    obtain ⟨_, hsame⟩ := hrefused
    rw [hsame] at hperform
    cases hperform
    rfl
  settles _ _ hrevision := absurd rfl hrevision
  wakes _ _ _ hrevision := absurd rfl hrevision
  intends := h.paused_or_running
  stops hdown := .inl hdown

/-- A transition settles only when everybody acknowledged it, and waking where the intent says. -/
theorem Sound.settles_of_move (h : before.Sound)
    (hmoves : Moves call before.shared.state last.state)
    (hsettled : last.state.phase.requiresAcknowledgement = false) (hfailed : last.state.phase ≠ .failed)
    (hrevision : last.state.revision ≠ before.shared.state.revision) :
    (∀ participant ∈ before.shared.state.participants,
      .acknowledge participant ⟨before.shared.state.phase, before.shared.state.revision⟩ ∈
        call :: before.accepted) ∧
    (before.shared.state.phase = .waking ∨ call = .wake →
      last.state.phase = lastIntent (call :: before.accepted)) := by
  obtain ⟨state, signal⟩ := last
  dsimp only at hmoves hsettled hfailed hrevision ⊢
  cases hmoves with
  | idles hintent => exact absurd rfl hrevision
  | acknowledges hcall hwaits hsome => exact absurd rfl hrevision
  | fails hcall => exact absurd rfl hfailed
  | begins hasks hsome =>
      rw [hasks.waits] at hsettled
      cases hsettled
  | passes hasks hnone =>
      refine ⟨fun participant hmem => ?_, ?_⟩
      · rw [Std.ExtTreeSet.isEmpty_iff.1 hnone] at hmem
        exact absurd hmem Std.ExtTreeSet.not_mem_empty
      · rintro (hwaking | hwake)
        · have hsome := h.waits (by rw [hwaking]; rfl)
          rw [hnone] at hsome
          cases hsome
        · have hintends := hasks.keeps_intent _ h.intends
          rw [hasks.wakes hwake] at hintends ⊢
          exact hintends
  | settles hcall hwaits hnone =>
      refine ⟨fun participant hmem => ?_, ?_⟩
      · apply h.acknowledged_after hwaits hcall hmem
        rw [Std.ExtTreeSet.isEmpty_iff.1 hnone]
        exact Std.ExtTreeSet.not_mem_empty
      · rintro (hwaking | hwake)
        · have hintends := h.intends
          rw [hwaking] at hintends ⊢
          rw [hcall]
          exact hintends
        · rw [hwake] at hcall
          cases hcall

theorem revision_of_move (hmoves : Moves call before.shared.state last.state) :
    last.state.phase = before.shared.state.phase ∧
        last.state.revision = before.shared.state.revision ∨
      before.shared.state.revision < last.state.revision := by
  obtain ⟨state, signal⟩ := last
  dsimp only at hmoves ⊢
  cases hmoves with
  | idles hintent => exact .inl ⟨rfl, rfl⟩
  | acknowledges hcall hwaits hsome => exact .inl ⟨rfl, rfl⟩
  | begins hasks hsome => exact .inr (Nat.lt_succ_self _)
  | passes hasks hnone => exact .inr (Nat.lt_add_of_pos_right Nat.two_pos)
  | settles hcall hwaits hnone => exact .inr (Nat.lt_succ_self _)
  | fails hcall => exact .inr (Nat.lt_succ_self _)

theorem stops_of_move (hmoves : Moves call before.shared.state last.state)
    (hdown : before.shared.state.phase.isTeardown = true) :
    last.state.phase.isTeardown = true ∨ before.shared.state.phase = .stopped ∧ call = .restart := by
  obtain ⟨state, signal⟩ := last
  dsimp only at hmoves ⊢
  cases hmoves with
  | idles hintent => exact .inl hdown
  | acknowledges hcall hwaits hsome => exact .inl hdown
  | begins hasks hsome => exact hasks.keeps_teardown hdown
  | passes hasks hnone =>
      exact (hasks.keeps_teardown hdown).imp_left fun hphase =>
        LifecyclePhase.isTeardown_settled hphase
  | settles hcall hwaits hnone => exact .inl (LifecyclePhase.isTeardown_settled hdown)
  | fails hcall => exact .inl rfl

/-- Step lemma: a call that has room keeps a coordinator sound, and does exactly what it may. -/
theorem Sound.step {after : Recorded} (h : before.Sound) (hroom : before.HasRoom call)
    (hstep : before.step call = some after) : after.Sound ∧ Exact before call after := by
  obtain ⟨error, hperform⟩ | ⟨snapshot, last, hperform, hmoves, hsignal⟩ := perform_answers hroom
  · simp only [Recorded.step, hperform, Option.some.injEq] at hstep
    subst hstep
    exact ⟨h, h.exact_of_refused ⟨error, hperform⟩⟩
  · simp only [Recorded.step, hperform, Option.some.injEq] at hstep
    subst hstep
    have hpublished : last.signal = encodeSignal last.state.phase last.state.revision := by
      obtain hpublished | ⟨hsame, hphase, hrevision⟩ := hsignal
      · exact hpublished
      · rw [hsame, hphase, hrevision]
        exact h.signal_eq
    have hsound := h.move hmoves hpublished
    refine ⟨hsound, hpublished, revision_of_move hmoves, ?_, ?_, ?_, hsound.paused_or_running,
      stops_of_move hmoves⟩
    · intro error other hother
      rw [hperform] at hother
      cases hother
    · intro hsettled hfailed hrevision
      exact (h.settles_of_move hmoves hsettled hfailed hrevision).1
    · intro hwake hsettled hfailed hrevision
      exact (h.settles_of_move hmoves hsettled hfailed hrevision).2 hwake

theorem run_sound {after : Recorded} {calls : List LifecycleCall} (h : before.Sound)
    (hroom : Machine.EveryStep step HasRoom before calls)
    (hrun : Machine.run step before calls = some after) : after.Sound :=
  Machine.invariant_of_run (fun h hroom hstep => (h.step hroom hstep).1) h hrun hroom

end Recorded

end Concurrency
end Superi

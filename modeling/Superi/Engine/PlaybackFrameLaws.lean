import Superi.Engine.PlaybackFrames
import Superi.Lib.Machine

/-!
# PlaybackFrameLaws — every frame ends once

What the calls answer, one after the other, describes the life of one frame after the other: it is
accepted, rendered and waited for, decided to be presented, and ends.  The state of the orchestrator
is at every moment the one that these answers say.
-/

namespace Superi
namespace Engine

open Core Concurrency Result

variable {Ω : Type}

/-! ## The life of a frame -/

/-- Whose turn it is: no frame, with the number of the next one; or the frame of a number, and the
decision to present it once it is taken. -/
inductive Ownership
  | free (next : Nat)
  | owned (number : Nat) (frame : RationalTime) (presentation : Option AvSyncOutcome)

namespace Ownership

/-- A decision that is taken, and stays. -/
def Decides (presentation : Option AvSyncOutcome) (sync : AvSyncOutcome) : Prop :=
  sync.isPresent = true ∧ ∀ decided ∈ presentation, decided = sync

inductive Step : Ownership → PlaybackEvent → Ownership → Prop
  | accept {number : Nat} {frame : RationalTime} :
      Step (.free number) (.accepted number frame) (.owned number frame none)
  | idle {next number : Nat} : Step (.free next) (.polled number .idle) (.free next)
  | nothing {next number : Nat} : Step (.free next) (.cancelled number false) (.free next)
  | render {number : Nat} {frame : RationalTime} {jobId : JobId} :
      Step (.owned number frame none) (.polled number (.rendering jobId frame))
        (.owned number frame none)
  | wait {number : Nat} {frame time dueClock clock : RationalTime} {sync : AvSyncOutcome}
      (htime : time ≈ frame) (hsync : sync.isHold = true) :
      Step (.owned number frame none) (.polled number (.waiting time dueClock clock sync))
        (.owned number frame none)
  | retain {number : Nat} {frame time : RationalTime} {presentation : Option AvSyncOutcome}
      {sync : AvSyncOutcome} (htime : time ≈ frame) (hsync : Decides presentation sync) :
      Step (.owned number frame presentation) (.polled number (.viewportBackpressured time sync))
        (.owned number frame (some sync))
  | present {number : Nat} {frame time : RationalTime} {presentation : Option AvSyncOutcome}
      {sync : AvSyncOutcome} (htime : time ≈ frame) (hsync : Decides presentation sync) :
      Step (.owned number frame presentation) (.polled number (.presented time sync))
        (.free (number + 1))
  | drop {number : Nat} {frame time : RationalTime} {sync : AvSyncOutcome} (htime : time ≈ frame)
      (hsync : sync.isDrop = true) :
      Step (.owned number frame none) (.polled number (.dropped time sync)) (.free (number + 1))
  | fail {number : Nat} {frame : RationalTime} {jobId : JobId} {error : Error} :
      Step (.owned number frame none) (.polled number (.failed jobId frame error))
        (.free (number + 1))
  | cancel {number : Nat} {frame : RationalTime} {presentation : Option AvSyncOutcome} :
      Step (.owned number frame presentation) (.cancelled number true) (.free (number + 1))

/-- The answers so far, and where they lead. -/
inductive Follows : List PlaybackEvent → Ownership → Prop
  | start : Follows [] (.free 0)
  | snoc {log : List PlaybackEvent} {before after : Ownership} {event : PlaybackEvent}
      (h : Follows log before) (hstep : before.Step event after) : Follows (log ++ [event]) after

/-- How many frames were accepted. -/
def acceptedFrames : Ownership → Nat
  | .free next => next
  | .owned number _ _ => number + 1

/-- How many frames have ended. -/
def endedFrames : Ownership → Nat
  | .free next => next
  | .owned number _ _ => number

end Ownership

namespace PlaybackEvent

/-- The frame of this number is accepted. -/
def accepts (number : Nat) : PlaybackEvent → Bool
  | .accepted other _ => other == number
  | _ => false

/-- The frame of this number ends. -/
def ends (number : Nat) : PlaybackEvent → Bool
  | .cancelled other found => found && other == number
  | .polled other (.presented ..) | .polled other (.dropped ..) | .polled other (.failed ..) =>
      other == number
  | _ => false

/-- The number of a frame that enters the viewport, and the time it is presented for. -/
def entry? : PlaybackEvent → Option (Nat × RationalTime)
  | .polled number (.presented time _) => some (number, time)
  | _ => none

end PlaybackEvent

/-- The frames that entered the viewport. -/
def entries (log : List PlaybackEvent) : List (Nat × RationalTime) :=
  log.filterMap PlaybackEvent.entry?

@[simp] theorem entries_append (log : List PlaybackEvent) (event : PlaybackEvent) :
    entries (log ++ [event]) = entries log ++ event.entry?.toList := by
  unfold entries
  rw [List.filterMap_append]
  cases h : event.entry? with
  | none => rw [List.filterMap_cons_none h, List.filterMap_nil]; rfl
  | some entry => rw [List.filterMap_cons_some h, List.filterMap_nil]; rfl

/-- An event without an entry. -/
theorem entries_quiet (log : List PlaybackEvent) {event : PlaybackEvent}
    (h : event.entry? = none) : entries (log ++ [event]) = entries log := by
  rw [entries_append, h]
  exact List.append_nil _

namespace Ownership

/-- The lives in a log: every frame is accepted once, and ends once unless it is owned; the frames
enter the viewport in the order of their numbers, and none that was cancelled. -/
structure Lives (log : List PlaybackEvent) (ownership : Ownership) : Prop where
  accepted : ∀ number, log.countP (PlaybackEvent.accepts number) =
    if number < ownership.acceptedFrames then 1 else 0
  ended : ∀ number, log.countP (PlaybackEvent.ends number) =
    if number < ownership.endedFrames then 1 else 0
  increasing : ((entries log).map Prod.fst).Pairwise (· < ·)
  below : ∀ entry ∈ entries log, entry.1 < ownership.endedFrames
  cancelled : ∀ number, .cancelled number true ∈ log →
    number < ownership.endedFrames ∧ ∀ entry ∈ entries log, entry.1 ≠ number

variable {log : List PlaybackEvent} {event : PlaybackEvent} {before after : Ownership}
  {number : Nat} {frame : RationalTime} {presentation : Option AvSyncOutcome}

/-- An answer without which the counts are the same. -/
theorem Lives.quiet (h : Lives log before) (haccepts : ∀ other, event.accepts other = false)
    (hends : ∀ other, event.ends other = false) (hentry : event.entry? = none)
    (hcancelled : ∀ other, .cancelled other true ≠ event)
    (haccepted : after.acceptedFrames = before.acceptedFrames)
    (hended : after.endedFrames = before.endedFrames) : Lives (log ++ [event]) after := by
  have hentries : entries (log ++ [event]) = entries log := entries_quiet log hentry
  refine ⟨fun other => ?_, fun other => ?_, ?_, ?_, fun other hmem => ?_⟩
  · rw [List.countP_append, List.countP_singleton, haccepts, h.accepted, haccepted]
    rfl
  · rw [List.countP_append, List.countP_singleton, hends, h.ended, hended]
    rfl
  · rw [hentries]
    exact h.increasing
  · rw [hentries, hended]
    exact h.below
  · rw [hentries, hended]
    rcases List.mem_append.1 hmem with hmem | hmem
    · exact h.cancelled other hmem
    · exact absurd (List.mem_singleton.1 hmem) (hcancelled other)

theorem one_more (number other : Nat) :
    (if other < number then 1 else 0) + (if (number == other) = true then 1 else 0) =
      if other < number + 1 then 1 else 0 := by
  rcases Nat.lt_trichotomy other number with h | rfl | h
  · rw [if_pos h, if_neg (by simpa using Nat.ne_of_gt h), if_pos (Nat.lt_succ_of_lt h)]
  · rw [if_neg (Nat.lt_irrefl other), if_pos (beq_self_eq_true other),
      if_pos (Nat.lt_succ_self other)]
  · rw [if_neg (Nat.lt_asymm h), if_neg (by simpa using Nat.ne_of_lt h),
      if_neg (Nat.not_lt.2 h)]

/-- The next frame is accepted. -/
theorem Lives.accept (h : Lives log (.free number)) (frame : RationalTime) :
    Lives (log ++ [.accepted number frame]) (.owned number frame none) := by
  have hentries : entries (log ++ [.accepted number frame]) = entries log := entries_quiet log rfl
  refine ⟨fun other => ?_, fun other => ?_, ?_, ?_, fun other hmem => ?_⟩
  · rw [List.countP_append, List.countP_singleton, h.accepted]
    exact one_more number other
  · rw [List.countP_append, List.countP_singleton, h.ended]
    rfl
  · rw [hentries]
    exact h.increasing
  · rw [hentries]
    exact h.below
  · rw [hentries]
    rcases List.mem_append.1 hmem with hmem | hmem
    · exact h.cancelled other hmem
    · cases List.mem_singleton.1 hmem

/-- The frame ends; if it enters the viewport then not by being cancelled. -/
theorem Lives.finish (h : Lives log (.owned number frame presentation))
    (haccepts : ∀ other, event.accepts other = false)
    (hends : ∀ other, event.ends other = (number == other))
    (hentry : ∀ entry ∈ event.entry?, entry.1 = number)
    (hcancelled : ∀ other, .cancelled other true = event → other = number ∧ event.entry? = none) :
    Lives (log ++ [event]) (.free (number + 1)) := by
  have hbelow : ∀ entry ∈ entries log, entry.1 < number := h.below
  refine ⟨fun other => ?_, fun other => ?_, ?_, fun entry hmem => ?_, fun other hmem => ?_⟩
  · rw [List.countP_append, List.countP_singleton, haccepts, h.accepted]
    rfl
  · rw [List.countP_append, List.countP_singleton, hends, h.ended]
    exact one_more number other
  · rw [entries_append, List.map_append, List.pairwise_append]
    refine ⟨h.increasing, ?_, ?_⟩
    · cases event.entry? with
      | none => exact List.Pairwise.nil
      | some entry => exact List.pairwise_singleton _ _
    · intro earlier hearlier later hlater
      obtain ⟨entry, hmem, rfl⟩ := List.mem_map.1 hearlier
      obtain ⟨entry', hmem', rfl⟩ := List.mem_map.1 hlater
      rw [hentry entry' (Option.mem_toList.1 hmem')]
      exact hbelow entry hmem
  · rw [entries_append] at hmem
    rcases List.mem_append.1 hmem with hmem | hmem
    · exact Nat.lt_succ_of_lt (hbelow entry hmem)
    · rw [hentry entry (Option.mem_toList.1 hmem)]
      exact Nat.lt_succ_self number
  · rw [entries_append]
    rcases List.mem_append.1 hmem with hmem | hmem
    · obtain ⟨hlt, hnever⟩ := h.cancelled other hmem
      refine ⟨Nat.lt_succ_of_lt hlt, fun entry hentered => ?_⟩
      rcases List.mem_append.1 hentered with hentered | hentered
      · exact hnever entry hentered
      · rw [hentry entry (Option.mem_toList.1 hentered)]
        exact Nat.ne_of_gt hlt
    · obtain ⟨rfl, hnone⟩ := hcancelled other (List.mem_singleton.1 hmem)
      refine ⟨Nat.lt_succ_self _, fun entry hentered => ?_⟩
      rw [hnone, Option.toList_none, List.append_nil] at hentered
      exact Nat.ne_of_lt (hbelow entry hentered)

theorem Lives.step (h : Lives log before) (hstep : before.Step event after) :
    Lives (log ++ [event]) after := by
  cases hstep with
  | accept => exact h.accept _
  | idle | nothing | render | wait | retain =>
      exact h.quiet (fun _ => rfl) (fun _ => rfl) rfl (by rintro other ⟨⟩) rfl rfl
  | present =>
      refine h.finish (fun _ => rfl) (fun _ => rfl) ?_ (by rintro other ⟨⟩)
      rintro entry ⟨⟩
      rfl
  | drop | fail =>
      exact h.finish (fun _ => rfl) (fun _ => rfl) (by rintro entry ⟨⟩) (by rintro other ⟨⟩)
  | cancel =>
      refine h.finish (fun _ => rfl) (fun _ => rfl) (by rintro entry ⟨⟩) ?_
      rintro other ⟨⟩
      exact ⟨rfl, rfl⟩

/-- By induction on the answers. -/
theorem Follows.lives {ownership : Ownership} (h : Follows log ownership) :
    Lives log ownership := by
  induction h with
  | start =>
      exact ⟨fun _ => rfl, fun _ => rfl, .nil, by rintro entry ⟨⟩, by rintro other ⟨⟩⟩
  | snoc _ hstep ih => exact ih.step hstep

end Ownership

/-! ## Jobs -/

/-- What a job does not lose. -/
structure FrameJob.Moves (job job' : FrameJob Ω) : Prop where
  frame : job'.frame = job.frame
  collected : ∀ outcome, job.stage = .collected outcome → job'.stage = .collected outcome

namespace FrameJob

variable (job : FrameJob Ω)

/-- Before its outcome is collected, a job may do anything with its stage. -/
theorem Moves.of_stage {job job' : FrameJob Ω} (hframe : job'.frame = job.frame)
    (hstage : ∀ outcome, job.stage ≠ .collected outcome) : Moves job job' :=
  ⟨hframe, fun outcome h => absurd h (hstage outcome)⟩

theorem unlessCancelled_frame (operation : String) {next : FrameJob Ω}
    (hnext : next.frame = job.frame) : (job.unlessCancelled operation next).frame = job.frame := by
  unfold unlessCancelled
  split
  · exact hnext
  · rfl

theorem complete_frame (output : PlaybackViewportFrame Ω) :
    (job.complete output).frame = job.frame := by
  unfold complete
  split
  · rfl
  · rfl

theorem work_moves (answer : Except Error (PlaybackViewportFrame Ω)) :
    Moves job (job.work answer) := by
  unfold work
  split
  · next hstage => exact .of_stage (job.unlessCancelled_frame _ rfl) (by simp [hstage])
  · next hstage => exact .of_stage (job.unlessCancelled_frame _ rfl) (by simp [hstage])
  · next hstage =>
      split
      · exact .of_stage rfl (by simp [hstage])
      · exact .of_stage rfl (by simp [hstage])
  · next hstage =>
      exact .of_stage (job.unlessCancelled_frame _ (job.complete_frame _)) (by simp [hstage])
  · next hstage => exact .of_stage rfl (by simp [hstage])
  · exact ⟨rfl, fun _ h => h⟩

theorem panic_moves : Moves job job.panic := by
  unfold panic
  split
  · next hstage => exact .of_stage rfl (by simp [hstage])
  · next hstage => exact .of_stage rfl (by simp [hstage])
  · next hstage => exact .of_stage rfl (by simp [hstage])
  · next hstage => exact .of_stage rfl (by simp [hstage])
  · exact ⟨rfl, fun _ h => h⟩

theorem vanish_moves : Moves job job.vanish := by
  unfold vanish
  split
  · exact ⟨rfl, fun _ h => h⟩
  · exact ⟨rfl, fun _ h => h⟩
  · next hcollected => exact .of_stage rfl hcollected

theorem cancel_moves : Moves job job.cancel := ⟨rfl, fun _ h => h⟩

theorem collect_moves : Moves job job.collect := by
  unfold collect
  split
  · next hstage => exact .of_stage rfl (by simp [hstage])
  · exact ⟨rfl, fun _ h => h⟩

/-- A handle answers with the outcome that was sent. -/
theorem tryCompletion_eq_some {outcome : JobOutcome (PlaybackViewportFrame Ω)}
    (h : job.tryCompletion = .ok (some outcome)) : job.collect.stage = .collected outcome := by
  unfold tryCompletion at h
  split at h
  · next sent hstage =>
      cases h
      rw [collect, hstage]
  · cases h
  · cases h
  · cases h

end FrameJob

/-- The jobs go on, and there may be more of them. -/
def FrameJobsMoved (jobs jobs' : List (FrameJob Ω)) : Prop :=
  ∀ (place : Nat) (job : FrameJob Ω), jobs[place]? = some job →
    ∃ job', jobs'[place]? = some job' ∧ job.Moves job'

theorem moved_append (jobs more : List (FrameJob Ω)) : FrameJobsMoved jobs (jobs ++ more) := by
  intro place job hjob
  refine ⟨job, ?_, rfl, fun _ h => h⟩
  rw [List.getElem?_append_left (List.getElem?_eq_some_iff.1 hjob).1]
  exact hjob

theorem moved_modify (jobs : List (FrameJob Ω)) (place : Nat) {change : FrameJob Ω → FrameJob Ω}
    (hchange : ∀ job : FrameJob Ω, job.Moves (change job)) :
    FrameJobsMoved jobs (jobs.modify place change) := by
  intro other job hjob
  rw [List.getElem?_modify, hjob]
  by_cases h : place = other
  · exact ⟨change job, by simp [h], hchange job⟩
  · exact ⟨job, by simp [h], rfl, fun _ h => h⟩

theorem FrameJobsMoved.refl (jobs : List (FrameJob Ω)) : FrameJobsMoved jobs jobs :=
  fun _ job hjob => ⟨job, hjob, rfl, fun _ h => h⟩

/-- The job of a number evaluated `frame` to `output`, which was collected. -/
def Produced (jobs : List (FrameJob Ω)) (number : Nat) (frame : RationalTime)
    (output : PlaybackViewportFrame Ω) : Prop :=
  ∃ job, jobs[number]? = some job ∧ job.frame = frame ∧
    job.stage = .collected (.succeeded output) ∧ output.timestamp ≈ frame

theorem Produced.mono {jobs jobs' : List (FrameJob Ω)} {number : Nat} {frame : RationalTime}
    {output : PlaybackViewportFrame Ω} (h : Produced jobs number frame output)
    (hmoved : FrameJobsMoved jobs jobs') : Produced jobs' number frame output := by
  obtain ⟨job, hjob, hframe, hstage, htime⟩ := h
  obtain ⟨job', hjob', hmoves⟩ := hmoved number job hjob
  exact ⟨job', hjob', hmoves.frame.trans hframe, hmoves.collected _ hstage, htime⟩

/-! ## Ownership of the state -/

namespace PlaybackOrchestrator

variable {state next : PlaybackOrchestrator Ω}

/-- The state holds what the ownership says: nothing, the handle of the job, or its output. -/
inductive Owns (state : PlaybackOrchestrator Ω) : Ownership → Prop
  | free (hpending : state.pending = none) (hready : state.ready = none) :
      Owns state (.free state.jobs.length)
  | pending {pending : PendingPlaybackFrame} {job : FrameJob Ω}
      (hpending : state.pending = some pending) (hready : state.ready = none)
      (hlast : state.jobs.length = pending.handle.place + 1)
      (hjob : state.jobs[pending.handle.place]? = some job) (hframe : job.frame = pending.frame) :
      Owns state (.owned pending.handle.place pending.frame none)
  | ready {ready : ReadyPlaybackFrame Ω} {number : Nat} {frame : RationalTime}
      (hready : state.ready = some ready) (hpending : state.pending = none)
      (hlast : state.jobs.length = number + 1)
      (hproduced : Produced state.jobs number frame ready.frame)
      (hpresent : ∀ sync ∈ ready.presentation, sync.isPresent = true) :
      Owns state (.owned number frame ready.presentation)

/-- Steps that leave the frame alone. -/
theorem Owns.mono {ownership : Ownership} (h : state.Owns ownership)
    (hpending : next.pending = state.pending) (hready : next.ready = state.ready)
    (hlength : next.jobs.length = state.jobs.length)
    (hmoved : FrameJobsMoved state.jobs next.jobs) :
    next.Owns ownership := by
  cases h with
  | free hnone hnone' =>
      rw [← hlength]
      exact .free (hpending.trans hnone) (hready.trans hnone')
  | pending hsome hnone hlast hjob hframe =>
      obtain ⟨job', hjob', hmoves⟩ := hmoved _ _ hjob
      exact .pending (hpending.trans hsome) (hready.trans hnone) (hlength.trans hlast) hjob'
        (hmoves.frame.trans hframe)
  | ready hsome hnone hlast hproduced hpresent =>
      exact .ready (hready.trans hsome) (hpending.trans hnone) (hlength.trans hlast)
        (hproduced.mono hmoved) hpresent

/-- What a poll sends to the viewport. -/
def Sends (jobs : List (FrameJob Ω)) (number : Nat)
    (items items' : List (PlaybackViewportFrame Ω)) :
    PlaybackPoll → Prop
  | .presented time _ => ∃ output frame,
      items' = items ++ [output] ∧ Produced jobs number frame output ∧ output.timestamp = time
  | _ => items' = items

/-- A poll answers as the ownership says, and leaves what the next ownership says; one that fails
leaves the ownership. -/
structure Tells (state : PlaybackOrchestrator Ω) (before : Ownership) (number : Nat)
    (answer : Answer Ω) : Prop where
  policy : answer.2.avSync.scheduler.policy = state.avSync.scheduler.policy
  length : answer.2.jobs.length = state.jobs.length
  moved : FrameJobsMoved state.jobs answer.2.jobs
  error : ∀ error, answer.1 = .error error →
    answer.2.Owns before ∧ answer.2.viewport = state.viewport
  ok : ∀ poll, answer.1 = .ok poll → ∃ after, before.Step (.polled number poll) after ∧
    answer.2.Owns after ∧
    Sends answer.2.jobs number state.viewport.items answer.2.viewport.items poll

section Retained

variable {retained : ReadyPlaybackFrame Ω} {number : Nat} {frame : RationalTime}
  {sync : AvSyncOutcome}

/-- The frame was taken out of the state, which has nothing else. -/
structure Holding (state : PlaybackOrchestrator Ω) (retained : ReadyPlaybackFrame Ω) (number : Nat)
    (frame : RationalTime) : Prop where
  pending : state.pending = none
  ready : state.ready = none
  last : state.jobs.length = number + 1
  produced : Produced state.jobs number frame retained.frame

theorem Holding.time (h : Holding state retained number frame) :
    retained.frame.timestamp ≈ frame := by
  obtain ⟨-, -, -, -, htime⟩ := h.produced
  exact htime

/-- The frame is put back. -/
theorem Holding.restore (h : Holding state retained number frame)
    {presentation : Option AvSyncOutcome}
    (hpresent : ∀ sync ∈ presentation, sync.isPresent = true) :
    { state with ready := some { retained with presentation } }.Owns
      (.owned number frame presentation) := by
  have hready : { state with ready := some { retained with presentation } }.ready =
      some { retained with presentation } := rfl
  exact .ready hready h.pending h.last h.produced hpresent

/-- The frame is gone. -/
theorem Holding.release (h : Holding state retained number frame) :
    state.Owns (.free (number + 1)) := by
  rw [← h.last]
  exact .free h.pending h.ready

theorem Holding.handOff (h : Holding state retained number frame)
    (hsync : Ownership.Decides retained.presentation sync) :
    Tells state (.owned number frame retained.presentation) number
      (state.handOff retained sync) := by
  unfold PlaybackOrchestrator.handOff
  split
  · next viewport hsent =>
      have hitems : viewport.items = state.viewport.items ++ [retained.frame] := by
        unfold Handoff.trySend at hsent
        split at hsent
        · cases hsent
          rfl
        · cases hsent
      refine ⟨rfl, rfl, FrameJobsMoved.refl _, fun error herror => by (cases herror), ?_⟩
      rintro poll ⟨⟩
      refine ⟨_, .present h.time hsync, ?_, retained.frame, frame, hitems, h.produced, rfl⟩
      exact h.release.mono rfl rfl rfl (FrameJobsMoved.refl _)
  · refine ⟨rfl, rfl, FrameJobsMoved.refl _, fun error herror => by (cases herror), ?_⟩
    rintro poll ⟨⟩
    refine ⟨_, .retain h.time hsync, h.restore ?_, rfl⟩
    rintro decided ⟨⟩
    exact hsync.1

/-- Only a decision to present a frame is kept. -/
theorem Holding.settle (h : Holding state retained number frame)
    (hkept : ∀ decided ∈ retained.presentation, decided = sync ∧ sync.isPresent = true) :
    Tells state (.owned number frame retained.presentation) number
      (state.settle retained sync) := by
  have hnone (hpresent : sync.isPresent = false) : retained.presentation = none := by
    rw [Option.eq_none_iff_forall_not_mem]
    intro decided hdecided
    rw [(hkept decided hdecided).2] at hpresent
    cases hpresent
  cases sync with
  | hold timing masterTime drift waitFor =>
      rw [hnone rfl]
      refine ⟨rfl, rfl, FrameJobsMoved.refl _, fun error herror => by (cases herror), ?_⟩
      rintro poll ⟨⟩
      exact ⟨_, .wait h.time rfl, h.restore (by rintro decided ⟨⟩), rfl⟩
  | present timing masterTime drift displayFor correction reason recovery =>
      exact h.handOff ⟨rfl, fun decided hdecided => (hkept decided hdecided).1⟩
  | drop timing masterTime drift =>
      rw [hnone rfl]
      refine ⟨rfl, rfl, FrameJobsMoved.refl _, fun error herror => by (cases herror), ?_⟩
      rintro poll ⟨⟩
      exact ⟨_, .drop h.time rfl, h.release, rfl⟩

/-- A decision that was taken is not asked for again. -/
theorem Holding.presentReady (h : Holding state retained number frame)
    (hvalid : state.avSync.scheduler.policy.Valid)
    (hpresent : ∀ sync ∈ retained.presentation, sync.isPresent = true) (reading : ClockReading) :
    ∃ answer, state.presentReady retained reading = some answer ∧
      Tells state (.owned number frame retained.presentation) number answer := by
  unfold PlaybackOrchestrator.presentReady
  cases hpresentation : retained.presentation with
  | some decided =>
      refine ⟨_, rfl, ?_⟩
      rw [← hpresentation]
      apply h.settle
      intro other hother
      rw [hpresentation] at hother
      cases hother
      exact ⟨rfl, hpresent decided hpresentation⟩
  | none =>
      obtain ⟨result, avSync, heq, hpolicy⟩ := AvSyncCoordinator.coordinateAtDeadline_keeps hvalid
        ⟨retained.frame.timestamp, retained.frame.duration⟩ retained.dueClock
        (retained.presentationDuration.getD retained.frame.duration) .lastReady reading
      simp only [heq, Option.map_some]
      have hholding : Holding { state with avSync } retained number frame :=
        ⟨h.pending, h.ready, h.last, h.produced⟩
      refine ⟨_, rfl, ?_⟩
      cases result with
      | error error =>
          refine ⟨hpolicy, rfl, FrameJobsMoved.refl _, fun other hother => ?_, fun poll hpoll => ?_⟩
          · refine ⟨?_, rfl⟩
            rw [← hpresentation]
            exact .ready rfl h.pending h.last h.produced hpresent
          · cases hpoll
      | ok sync =>
          have htells : Tells { state with avSync } (.owned number frame retained.presentation)
              number ({ state with avSync }.settle retained sync) := by
            apply hholding.settle
            intro decided hdecided
            rw [hpresentation] at hdecided
            cases hdecided
          rw [hpresentation] at htells
          exact ⟨htells.policy.trans hpolicy, htells.length, htells.moved, htells.error, htells.ok⟩

end Retained

theorem outputFor_eq_some {frame : RationalTime}
    {outcome : JobOutcome (PlaybackViewportFrame Ω)} {output : PlaybackViewportFrame Ω}
    (h : outputFor frame outcome = some output) :
    outcome = .succeeded output ∧ output.timestamp ≈ frame := by
  cases outcome with
  | succeeded other =>
      obtain ⟨htime, hother⟩ := Option.ite_none_right_eq_some.1 h
      cases hother
      exact ⟨rfl, htime⟩
  | failed error => cases h
  | cancelled => cases h
  | deadlineExceeded => cases h
  | dependencyFailed failure => cases h

/-- The handle has told that its job ended. -/
theorem receive_tells {pending : PendingPlaybackFrame} {job : FrameJob Ω}
    {outcome : JobOutcome (PlaybackViewportFrame Ω)}
    (hvalid : state.avSync.scheduler.policy.Valid) (hready : state.ready = none)
    (hlast : state.jobs.length = pending.handle.place + 1)
    (hjob : state.jobs[pending.handle.place]? = some job) (hframe : job.frame = pending.frame)
    (houtcome : job.tryCompletion = .ok (some outcome)) (reading : ClockReading) :
    ∃ answer, state.receive pending outcome reading = some answer ∧
      Tells state (.owned pending.handle.place pending.frame none) pending.handle.place answer := by
  have hmoved := moved_modify state.jobs pending.handle.place FrameJob.collect_moves
  have hlength : (state.jobs.modify pending.handle.place FrameJob.collect).length =
      pending.handle.place + 1 := (List.length_modify ..).trans hlast
  unfold receive
  cases houtput : outputFor pending.frame outcome with
  | none =>
      refine ⟨_, rfl, rfl, List.length_modify .., hmoved, fun error herror => by (cases herror), ?_⟩
      rintro poll ⟨⟩
      refine ⟨_, .fail, ?_, rfl⟩
      rw [← hlength]
      exact .free rfl hready
  | some output =>
      obtain ⟨rfl, htime⟩ := outputFor_eq_some houtput
      have hcollected : (state.jobs.modify pending.handle.place FrameJob.collect)[
          pending.handle.place]? = some job.collect := by
        rw [List.getElem?_modify, hjob]
        simp
      have hholding : Holding { state with
          pending := none
          jobs := state.jobs.modify pending.handle.place FrameJob.collect }
          ⟨pending.dueClock, pending.presentationDuration, output, none⟩ pending.handle.place
          pending.frame :=
        ⟨rfl, hready, hlength, job.collect, hcollected,
          (FrameJob.collect_moves job).frame.trans hframe, job.tryCompletion_eq_some houtcome,
          htime⟩
      obtain ⟨answer, heq, htells⟩ := hholding.presentReady hvalid (by rintro sync ⟨⟩) reading
      refine ⟨answer, heq, htells.policy, htells.length.trans (List.length_modify ..), ?_,
        htells.error, htells.ok⟩
      intro place other hother
      obtain ⟨middle, hmiddle, hmoves⟩ := hmoved place other hother
      obtain ⟨last, hlast', hmoves'⟩ := htells.moved place middle hmiddle
      exact ⟨last, hlast', hmoves'.frame.trans hmoves.frame,
        fun outcome h => hmoves'.collected outcome (hmoves.collected outcome h)⟩

/-- A poll returns. -/
theorem Owns.pollAt {ownership : Ownership} (h : state.Owns ownership)
    (hvalid : state.avSync.scheduler.policy.Valid) (reading : ClockReading) :
    ∃ answer, state.pollAt reading = some answer ∧
      Tells state ownership (state.jobs.length - 1) answer := by
  unfold PlaybackOrchestrator.pollAt
  cases h with
  | free hpending hready =>
      rw [hpending, hready]
      refine ⟨_, rfl, rfl, rfl, .refl _, fun error herror => by (cases herror), ?_⟩
      rintro poll ⟨⟩
      exact ⟨_, .idle, .free hpending hready, rfl⟩
  | @pending pending job hpending hready hlast hjob hframe =>
      rw [hpending, hready, hlast, Nat.add_sub_cancel]
      have howns : state.Owns (.owned pending.handle.place pending.frame none) :=
        .pending hpending hready hlast hjob hframe
      have heq : state.tryCompletion pending.handle = job.tryCompletion := by
        rw [tryCompletion, hjob]
      simp only [pollPending, heq]
      cases hcompletion : job.tryCompletion with
      | error error =>
          refine ⟨_, rfl, rfl, rfl, .refl _, fun _ _ => ⟨howns, rfl⟩, fun poll hpoll => ?_⟩
          cases hpoll
      | ok outcome =>
          cases outcome with
          | none =>
              refine ⟨_, rfl, rfl, rfl, .refl _, fun error herror => by (cases herror), ?_⟩
              rintro poll ⟨⟩
              exact ⟨_, .render, howns, rfl⟩
          | some outcome => exact receive_tells hvalid hready hlast hjob hframe hcompletion reading
  | @ready retained number frame hready hpending hlast hproduced hpresent =>
      rw [hready, hlast, Nat.add_sub_cancel]
      have hholding : Holding { state with ready := none } retained number frame :=
        ⟨hpending, rfl, hlast, hproduced⟩
      obtain ⟨answer, heq, htells⟩ := hholding.presentReady hvalid hpresent reading
      exact ⟨answer, heq, htells.policy, htells.length, htells.moved, htells.error, htells.ok⟩

theorem checkTiming_eq_ok {dueClock : RationalTime} {presentationDuration : Option Duration}
    (h : state.checkTiming dueClock presentationDuration = .ok ()) :
    state.pending = none ∧ state.ready = none := by
  simp only [checkTiming, bind_eq_ok, rejectIf_eq_ok] at h
  obtain ⟨-, -, -, -, hfree⟩ := h
  rw [not_or, Option.not_isSome_iff_eq_none, Option.not_isSome_iff_eq_none] at hfree
  exact hfree

/-- A submission that returns found no frame, and put the job of its frame behind the others. -/
theorem submitFrameWithTiming_eq_ok {jobId : JobId} {frame dueClock : RationalTime}
    {presentationDuration : Option Duration} {pool : Option (Except Error Unit)}
    (h : state.submitFrameWithTiming jobId frame dueClock presentationDuration pool = .ok next) :
    state.pending = none ∧ state.ready = none ∧ ∃ progress, next = { state with
      pending := some ⟨frame, dueClock, presentationDuration, ⟨jobId, state.jobs.length⟩⟩
      jobs := state.jobs ++ [⟨jobId, frame, progress, false, .queued⟩] } := by
  obtain ⟨_, hfree, h⟩ := bind_eq_ok.1 h
  obtain ⟨hpending, hready⟩ := checkTiming_eq_ok hfree
  obtain ⟨answer, -, h⟩ := bind_eq_ok.1 h
  obtain ⟨progress, -, h⟩ := bind_eq_ok.1 h
  obtain ⟨_, -, h⟩ := bind_eq_ok.1 h
  cases h
  exact ⟨hpending, hready, progress, rfl⟩

theorem submitFrameWithTiming_owns {jobId : JobId} {frame dueClock : RationalTime}
    {presentationDuration : Option Duration} {pool : Option (Except Error Unit)}
    (h : state.submitFrameWithTiming jobId frame dueClock presentationDuration pool = .ok next) :
    next.Owns (.owned state.jobs.length frame none) := by
  obtain ⟨-, hready, progress, hnext⟩ := submitFrameWithTiming_eq_ok h
  have hpending : next.pending =
      some ⟨frame, dueClock, presentationDuration, ⟨jobId, state.jobs.length⟩⟩ := by
    rw [hnext]
  have hjobs : next.jobs = state.jobs ++ [⟨jobId, frame, progress, false, .queued⟩] := by
    rw [hnext]
  have hlength : next.jobs.length = state.jobs.length + 1 := by
    rw [hjobs, List.length_append, List.length_singleton]
  have hjob : next.jobs[state.jobs.length]? = some ⟨jobId, frame, progress, false, .queued⟩ := by
    rw [hjobs]
    exact List.getElem?_concat_length ..
  exact .pending hpending (by rw [hnext]; exact hready) hlength hjob rfl

/-- A cancelled frame is not owned any more. -/
theorem Owns.cancelFrame {ownership : Ownership} (h : state.Owns ownership) :
    ∃ after, ownership.Step (.cancelled (state.jobs.length - 1) state.cancelFrame.1) after ∧
      state.cancelFrame.2.Owns after := by
  unfold PlaybackOrchestrator.cancelFrame
  cases h with
  | free hpending hready =>
      rw [hpending, hready]
      exact ⟨_, .nothing, .free rfl rfl⟩
  | @pending pending job hpending hready hlast hjob hframe =>
      rw [hpending, hlast, Nat.add_sub_cancel]
      refine ⟨_, .cancel, ?_⟩
      rw [← hlast, ← List.length_modify FrameJob.cancel state.jobs pending.handle.place]
      exact .free rfl rfl
  | @ready retained number frame hready hpending hlast hproduced hpresent =>
      rw [hpending, hready, hlast, Nat.add_sub_cancel]
      refine ⟨_, .cancel, ?_⟩
      rw [← hlast]
      exact .free rfl rfl

theorem cancelFrame_frame (state : PlaybackOrchestrator Ω) :
    state.cancelFrame.2.avSync = state.avSync ∧ state.cancelFrame.2.viewport = state.viewport ∧
      FrameJobsMoved state.jobs state.cancelFrame.2.jobs := by
  unfold PlaybackOrchestrator.cancelFrame
  split
  · exact ⟨rfl, rfl, moved_modify _ _ FrameJob.cancel_moves⟩
  · exact ⟨rfl, rfl, FrameJobsMoved.refl _⟩

end PlaybackOrchestrator

/-! ## Sessions -/

namespace PlaybackSession

open PlaybackOrchestrator

/-- What entered the viewport: the output of the job of this number. -/
def Entered (jobs : List (FrameJob Ω)) (entry : Nat × RationalTime)
    (output : PlaybackViewportFrame Ω) : Prop :=
  ∃ frame, Produced jobs entry.1 frame output ∧ output.timestamp = entry.2

/-- The state is where the answers lead, and the viewport got what they say. -/
structure Kept (session : PlaybackSession Ω) (ownership : Ownership) : Prop where
  policy : session.state.avSync.scheduler.policy.Valid
  follows : Ownership.Follows session.log ownership
  owns : session.state.Owns ownership
  entered : List.Forall₂ (Entered session.state.jobs) (entries session.log)
    (session.received ++ session.state.viewport.items)

variable {session : PlaybackSession Ω} {ownership : Ownership}

theorem entered_mono {jobs jobs' : List (FrameJob Ω)} {log : List (Nat × RationalTime)}
    {outputs : List (PlaybackViewportFrame Ω)} (h : List.Forall₂ (Entered jobs) log outputs)
    (hmoved : FrameJobsMoved jobs jobs') : List.Forall₂ (Entered jobs') log outputs := by
  refine h.imp ?_
  rintro entry output ⟨frame, hproduced, htime⟩
  exact ⟨frame, hproduced.mono hmoved, htime⟩

/-- A worker goes on with a job. -/
theorem Kept.onJob (h : session.Kept ownership) (place : Nat) {change : FrameJob Ω → FrameJob Ω}
    (hchange : ∀ job : FrameJob Ω, job.Moves (change job)) :
    (session.onJob place change).Kept ownership := by
  have hmoved := moved_modify session.state.jobs place hchange
  exact ⟨h.policy, h.follows, h.owns.mono rfl rfl (List.length_modify ..) hmoved,
    entered_mono h.entered hmoved⟩

theorem Kept.onClock (h : session.Kept ownership)
    {answer : Except Error RationalTime × AvSyncCoordinator}
    (hpolicy : answer.2.scheduler = session.state.avSync.scheduler) :
    (session.onClock answer).Kept ownership := by
  refine ⟨?_, h.follows, h.owns.mono rfl rfl rfl (FrameJobsMoved.refl _), h.entered⟩
  show answer.2.scheduler.policy.Valid
  rw [hpolicy]
  exact h.policy

/-- A submission that is refused changes nothing. -/
theorem Kept.submitted (h : session.Kept ownership) (frame : RationalTime)
    {result : Except Error (PlaybackOrchestrator Ω)}
    (hresult : ∀ next, result = .ok next → ∃ jobId dueClock presentationDuration pool,
      session.state.submitFrameWithTiming jobId frame dueClock presentationDuration pool =
        .ok next) : ∃ after, (session.submitted frame result).Kept after := by
  cases result with
  | error error => exact ⟨ownership, h⟩
  | ok next =>
      obtain ⟨jobId, dueClock, presentationDuration, pool, heq⟩ := hresult next rfl
      have howns := submitFrameWithTiming_owns heq
      obtain ⟨hpending, hready, progress, rfl⟩ := submitFrameWithTiming_eq_ok heq
      have hfree : ownership = .free session.state.jobs.length := by
        cases h.owns with
        | free => rfl
        | pending hsome => rw [hpending] at hsome; cases hsome
        | ready hsome => rw [hready] at hsome; cases hsome
      have hfollows := h.follows
      rw [hfree] at hfollows
      refine ⟨_, h.policy, hfollows.snoc .accept, howns, ?_⟩
      · show List.Forall₂ _ (entries (session.log ++ _)) _
        rw [entries_quiet _ rfl]
        exact entered_mono h.entered (moved_append _ _)

theorem Kept.cancelFrame (h : session.Kept ownership) :
    ∃ after, Kept { session with
      state := session.state.cancelFrame.2
      log := session.log ++ [.cancelled session.latest session.state.cancelFrame.1] } after := by
  obtain ⟨after, hstep, howns⟩ := h.owns.cancelFrame
  obtain ⟨havSync, hviewport, hmoved⟩ := cancelFrame_frame session.state
  refine ⟨after, ?_, h.follows.snoc hstep, howns, ?_⟩
  · show session.state.cancelFrame.2.avSync.scheduler.policy.Valid
    rw [havSync]
    exact h.policy
  · show List.Forall₂ _ (entries (session.log ++ _))
      (session.received ++ session.state.cancelFrame.2.viewport.items)
    rw [entries_quiet _ rfl, hviewport]
    exact entered_mono h.entered hmoved

theorem Kept.polled (h : session.Kept ownership) {answer : Answer Ω}
    (htells : Tells session.state ownership session.latest answer) :
    ∃ after, (session.polled answer).Kept after := by
  obtain ⟨result, state⟩ := answer
  have hpolicy : state.avSync.scheduler.policy.Valid := by
    rw [htells.policy]
    exact h.policy
  have hentered := entered_mono h.entered htells.moved
  cases result with
  | error error =>
      obtain ⟨howns, hviewport⟩ := htells.error error rfl
      refine ⟨ownership, hpolicy, h.follows, howns, ?_⟩
      show List.Forall₂ _ _ (session.received ++ state.viewport.items)
      rw [hviewport]
      exact hentered
  | ok poll =>
      obtain ⟨after, hstep, howns, hsends⟩ := htells.ok poll rfl
      refine ⟨after, hpolicy, h.follows.snoc hstep, howns, ?_⟩
      show List.Forall₂ _ (entries (session.log ++ [.polled session.latest poll]))
        (session.received ++ state.viewport.items)
      cases poll with
      | presented time sync =>
          obtain ⟨output, frame, hitems, hproduced, htime⟩ := hsends
          rw [entries_append, hitems, ← List.append_assoc]
          exact List.rel_append hentered (.cons ⟨frame, hproduced, htime⟩ .nil)
      | _ =>
          rw [entries_quiet _ rfl, hsends]
          exact hentered

theorem Kept.step (h : session.Kept ownership) (action : PlaybackAction Ω) :
    ∃ next after, session.step action = some next ∧ next.Kept after := by
  cases action with
  | submitFrame jobId frame pool =>
      obtain ⟨after, hafter⟩ := h.submitted frame fun next hnext => by
        obtain ⟨dueClock, -, hsubmitted⟩ := bind_eq_ok.1 hnext
        exact ⟨jobId, dueClock, none, pool, hsubmitted⟩
      exact ⟨_, after, rfl, hafter⟩
  | submitFrameAt jobId frame dueClock pool =>
      obtain ⟨after, hafter⟩ := h.submitted frame fun next hnext =>
        ⟨jobId, dueClock, none, pool, hnext⟩
      exact ⟨_, after, rfl, hafter⟩
  | submitFrameAtWithDuration jobId frame dueClock presentationDuration pool =>
      obtain ⟨after, hafter⟩ := h.submitted frame fun next hnext =>
        ⟨jobId, dueClock, some presentationDuration, pool, hnext⟩
      exact ⟨_, after, rfl, hafter⟩
  | cancelFrame =>
      obtain ⟨after, hafter⟩ := h.cancelFrame
      exact ⟨_, after, rfl, hafter⟩
  | pollAt reading =>
      obtain ⟨answer, heq, htells⟩ := h.owns.pollAt h.policy reading
      obtain ⟨after, hafter⟩ := h.polled htells
      exact ⟨_, after, by rw [PlaybackSession.step, heq]; rfl, hafter⟩
  | reanchorClock timelineAnchor reading =>
      exact ⟨_, _, rfl, h.onClock (AvSyncCoordinator.changeClock_policy _ _)⟩
  | fallbackToPlayback reading =>
      exact ⟨_, _, rfl, h.onClock (AvSyncCoordinator.changeClock_policy _ _)⟩
  | recoverAudioMaster reading =>
      exact ⟨_, _, rfl, h.onClock (AvSyncCoordinator.changeClock_policy _ _)⟩
  | work place answer => exact ⟨_, _, rfl, h.onJob place (FrameJob.work_moves · answer)⟩
  | panic place => exact ⟨_, _, rfl, h.onJob place FrameJob.panic_moves⟩
  | vanish place => exact ⟨_, _, rfl, h.onJob place FrameJob.vanish_moves⟩
  | receive =>
      refine ⟨_, ownership, rfl, ?_⟩
      cases hitems : session.state.viewport.items with
      | nil =>
          have hnone : session.state.viewport.tryReceive = none := by
            rw [Handoff.tryReceive, hitems]
          simp only [hnone]
          exact h
      | cons item items =>
          have hsome : session.state.viewport.tryReceive =
              some (item, { session.state.viewport with items }) := by
            rw [Handoff.tryReceive, hitems]
          have hentered := h.entered
          rw [hitems] at hentered
          simp only [hsome]
          refine ⟨h.policy, h.follows, h.owns.mono rfl rfl rfl (.refl _), ?_⟩
          rw [List.append_assoc]
          exact hentered

/-- By induction on the actions. -/
theorem Kept.run (h : session.Kept ownership) (actions : List (PlaybackAction Ω)) :
    ∃ last after, Machine.run PlaybackSession.step session actions = some last ∧
      last.Kept after := by
  induction actions generalizing session ownership with
  | nil => exact ⟨session, ownership, rfl, h⟩
  | cons action rest ih =>
      obtain ⟨next, after, hstep, hnext⟩ := h.step action
      obtain ⟨last, final, hrun, hlast⟩ := ih hnext
      exact ⟨last, final, Option.bind_eq_some_iff.2 ⟨next, hstep, hrun⟩, hlast⟩

theorem start_kept {capacity : Nat} {audio : Timebase} {sample : I64}
    {timelineAnchor : RationalTime} {policy : AvSyncPolicy} {state : PlaybackOrchestrator Ω}
    (h : audioMasterWithPolicy capacity audio sample timelineAnchor policy = .ok state) :
    (start state).Kept (.free 0) := by
  obtain ⟨avSync, havSync, h⟩ := bind_eq_ok.1 h
  cases h
  exact ⟨AvSyncCoordinator.audioMasterWithPolicy_valid havSync, .start, .free rfl rfl, .nil⟩

theorem settle_avSync (state : PlaybackOrchestrator Ω) (ready : ReadyPlaybackFrame Ω)
    (sync : AvSyncOutcome) : (state.settle ready sync).2.avSync = state.avSync := by
  cases sync with
  | hold timing masterTime drift waitFor => rfl
  | drop timing masterTime drift => rfl
  | present timing masterTime drift displayFor correction reason recovery =>
      show (state.handOff ready _).2.avSync = state.avSync
      unfold PlaybackOrchestrator.handOff
      split
      · rfl
      · rfl

/-- A decision that is kept is not taken again: neither the clock nor the scheduler is asked. -/
theorem pollAt_decided {state : PlaybackOrchestrator Ω} {number : Nat} {frame : RationalTime}
    {sync : AvSyncOutcome} (h : state.Owns (.owned number frame (some sync)))
    {reading : ClockReading} {answer : Answer Ω} (hanswer : state.pollAt reading = some answer) :
    answer.2.avSync = state.avSync := by
  generalize howned : Ownership.owned number frame (some sync) = ownership at h
  cases h with
  | free => cases howned
  | pending => cases howned
  | @ready ready _ _ hready hpending hlast hproduced hpresent =>
      injection howned with _ _ hsync
      rw [PlaybackOrchestrator.pollAt, hready] at hanswer
      replace hanswer : PlaybackOrchestrator.presentReady _ ready reading = some answer := hanswer
      rw [PlaybackOrchestrator.presentReady, ← hsync] at hanswer
      cases hanswer
      exact settle_avSync _ ready sync

/-- In every run of an orchestrator, no call is lost to a wrapped step, and the answers are the
lives of frames one after the other, as `Ownership.Step` says them; the state is where they lead,
after a poll that failed too.  Every frame is accepted once and ends once unless it is owned, and
what entered the viewport is, in order, the output of the jobs of the presented frames. -/
theorem frame_ends_once {capacity : Nat} {audio : Timebase} {sample : I64}
    {timelineAnchor : RationalTime} {policy : AvSyncPolicy} {state : PlaybackOrchestrator Ω}
    (h : audioMasterWithPolicy capacity audio sample timelineAnchor policy = .ok state)
    (actions : List (PlaybackAction Ω)) :
    ∃ last ownership, Machine.run PlaybackSession.step (start state) actions = some last ∧
      Ownership.Follows last.log ownership ∧ last.state.Owns ownership ∧
      Ownership.Lives last.log ownership ∧
      List.Forall₂ (Entered last.state.jobs) (entries last.log)
        (last.received ++ last.state.viewport.items) ∧
      (∀ reading, ∃ result next, last.state.pollAt reading = some (result, next) ∧
        ((∃ error, result = .error error) → next.Owns ownership)) ∧
      (∀ number frame sync, ownership = .owned number frame (some sync) → ∀ reading answer,
        last.state.pollAt reading = some answer → answer.2.avSync = last.state.avSync) := by
  obtain ⟨last, ownership, hrun, hkept⟩ := (start_kept h).run actions
  refine ⟨last, ownership, hrun, hkept.follows, hkept.owns, hkept.follows.lives, hkept.entered,
    ?_, ?_⟩
  · intro reading
    obtain ⟨⟨result, next⟩, heq, htells⟩ := hkept.owns.pollAt hkept.policy reading
    refine ⟨result, next, heq, ?_⟩
    rintro ⟨error, herror⟩
    exact (htells.error error herror).1
  · rintro number frame sync rfl reading answer hanswer
    exact pollAt_decided hkept.owns hanswer

def deviceTimebase : Timebase := .integer 48000 Timebase.pos_48000 Timebase.fits_48000

/-- The frame at the start of the timeline. -/
def firstFrame : PlaybackViewportFrame Unit where
  output := ()
  timestamp := ⟨0, deviceTimebase, inI64_zero⟩
  duration := ⟨2000, deviceTimebase, by decide⟩

def atStart : ClockReading := ⟨0, ⟨0, inI64_zero⟩, ⟨0, inI64_zero⟩⟩

/-- A frame is rendered, presented and taken by the viewport. -/
def showFrame : List (PlaybackAction Unit) :=
  .submitFrame ⟨7⟩ firstFrame.timestamp (some (.ok ())) ::
    (List.replicate 5 (.work 0 (.ok firstFrame)) ++ [.pollAt atStart, .receive])

theorem frame_ends_once_shown : ∃ state last ownership,
    audioMasterWithPolicy 1 deviceTimebase ⟨0, by decide⟩ firstFrame.timestamp .default =
      .ok state ∧
    Machine.run PlaybackSession.step (start state) showFrame = some last ∧
    Ownership.Lives last.log ownership := by
  have hstart : ∃ state : PlaybackOrchestrator Unit, audioMasterWithPolicy 1 deviceTimebase
      ⟨0, by decide⟩ firstFrame.timestamp .default = .ok state := ⟨_, rfl⟩
  obtain ⟨state, hstate⟩ := hstart
  obtain ⟨last, ownership, hrun, -, -, hlives, -⟩ := frame_ends_once hstate showFrame
  exact ⟨state, last, ownership, hstate, hrun, hlives⟩

end PlaybackSession

end Engine
end Superi

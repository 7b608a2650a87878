import Mathlib
import Superi.Engine.Prefetch
import Superi.Lib.Result

/-!
# PrefetchLaws — every generation is reported once

At any time a generation that was accepted is in one place: among the completions that were
delivered, among those that are ready, or among the jobs that are pending.  A poll that finds no
broken handle moves it to the first of these as soon as its job has ended.
-/

namespace Superi
namespace Engine

open Core Concurrency Stateful Result

/-! ## Jobs -/

namespace PrefetchJob

/-- The result of the job is in its channel, or was taken from there. -/
def Ended (job : PrefetchJob) : Prop :=
  (∃ completion, job.channel = .holds completion) ∨ job.channel = .taken

/-- The bookkeeping of a job. -/
structure Sound (job : PrefetchJob) : Prop where
  progress : job.progress.completedUnits = job.index
  total : job.progress.totalUnits = some job.plannedFrames
  rest : job.requests.length + job.index = job.plannedFrames
  held : ∀ completion, job.channel = .holds completion →
    completion.jobId = job.jobId ∧ completion.completedFrames ≤ job.plannedFrames

/-- What a step of the worker or of the publisher leaves as it was. -/
structure Moves (job job' : PrefetchJob) : Prop where
  sound : job'.Sound
  jobId : job'.jobId = job.jobId
  plannedFrames : job'.plannedFrames = job.plannedFrames
  ended : job.Ended → job'.Ended
  taken : job'.channel = .taken → job.channel = .taken

variable {job : PrefetchJob}

theorem Moves.refl (h : job.Sound) : Moves job job := ⟨h, rfl, rfl, id, id⟩

theorem Sound.cancel (h : job.Sound) : Moves job job.cancel :=
  ⟨⟨h.progress, h.total, h.rest, h.held⟩, rfl, rfl, id, id⟩

theorem not_ended_of_empty (h : job.channel = .empty) : ¬ job.Ended := by
  rintro (⟨completion, hc⟩ | hc) <;> rw [h] at hc <;> cases hc

/-- A worker sends a result. -/
theorem Sound.send (h : job.Sound) (hempty : job.channel = .empty) {outcome : JobOutcome Nat}
    (houtcome : ∀ frames, outcome = .succeeded frames → frames ≤ job.plannedFrames) :
    Moves job (job.send outcome) := by
  refine ⟨⟨h.progress, h.total, h.rest, ?_⟩, rfl, rfl, fun hended => ?_, fun htaken => by cases htaken⟩
  · intro completion hc
    cases hc
    refine ⟨rfl, ?_⟩
    have hle : job.progress.completedUnits ≤ job.plannedFrames := by
      have hrest := h.rest
      rw [h.progress]
      omega
    unfold JobCompletion.completedFrames
    cases outcome with
    | succeeded frames => exact houtcome frames rfl
    | failed _ => exact hle
    | cancelled => exact hle
    | deadlineExceeded => exact hle
    | dependencyFailed _ => exact hle
  · exact absurd hended (not_ended_of_empty hempty)

theorem outcomeFromError_ne_succeeded (error : Error) (frames : Nat) :
    outcomeFromError error ≠ .succeeded frames := by
  unfold outcomeFromError
  split <;> exact fun h => by cases h

theorem advanceTo_eq_ok {progress next : JobProgress} {completedUnits : Nat}
    (h : progress.advanceTo completedUnits = .ok next) :
    next.completedUnits = completedUnits ∧ next.totalUnits = progress.totalUnits := by
  obtain ⟨-, -, h⟩ := bind_eq_ok.1 h
  obtain ⟨-, -, h⟩ := bind_eq_ok.1 h
  split at h
  · rename_i heq
    cases h
    exact ⟨heq.symm, rfl⟩
  · obtain ⟨-, -, h⟩ := bind_eq_ok.1 h
    cases h
    exact ⟨rfl, rfl⟩

theorem Sound.work (h : job.Sound) (answer : Except Error Unit) : Moves job (job.work answer) := by
  unfold PrefetchJob.work
  split
  · rename_i hempty
    split
    · exact h.send hempty fun frames heq => by
        cases heq
        exact le_rfl
    · rename_i requests hrequests
      dsimp only
      split
      · rename_i progress hprogress
        obtain ⟨_, -, hprogress⟩ := bind_eq_ok.1 hprogress
        obtain ⟨_, -, hprogress⟩ := bind_eq_ok.1 hprogress
        obtain ⟨hcompleted, htotal⟩ := advanceTo_eq_ok hprogress
        have hrest := h.rest
        rw [hrequests, List.length_cons] at hrest
        refine ⟨⟨hcompleted, htotal.trans h.total, by dsimp only; omega, h.held⟩, rfl, rfl,
          fun hended => absurd hended (not_ended_of_empty hempty), id⟩
      · exact h.send hempty fun frames heq => absurd heq (outcomeFromError_ne_succeeded _ _)
  · exact .refl h

theorem Sound.panic (h : job.Sound) : Moves job job.panic := by
  unfold PrefetchJob.panic
  split
  · rename_i hempty
    exact h.send hempty fun frames heq => by cases heq
  · exact .refl h

theorem Sound.vanish (h : job.Sound) : Moves job job.vanish := by
  unfold PrefetchJob.vanish
  split
  · rename_i hempty
    exact ⟨⟨h.progress, h.total, h.rest, fun _ hc => by cases hc⟩, rfl, rfl,
      fun hended => absurd hended (not_ended_of_empty hempty), fun htaken => by cases htaken⟩
  · exact .refl h

end PrefetchJob

/-! ## Sessions -/

namespace PrefetchSession

/-- The frames of a submission were none, or its job has ended. -/
def EndedIn (jobs : List PrefetchJob) (prefetch : AcceptedPrefetch) : Prop :=
  ∀ handle, prefetch.handle = some handle → ∃ job, jobs[handle]? = some job ∧ job.Ended

/-- A completion tells of a submission. -/
structure Answers (completion : PlaybackPrefetchCompletion) (prefetch : AcceptedPrefetch) :
    Prop where
  generation : completion.generation = prefetch.submission.generation
  jobId : completion.jobId = prefetch.submission.jobId
  plannedFrames : completion.plannedFrames = prefetch.submission.plannedFrames
  completed_le : completion.completedFrames ≤ completion.plannedFrames

/-- A pending handle belongs to a submission, and its result was not taken. -/
structure Awaits (jobs : List PrefetchJob) (pending : PendingPrefetch)
    (prefetch : AcceptedPrefetch) (job : PrefetchJob) : Prop where
  handle : prefetch.handle = some pending.handle
  generation : pending.generation = prefetch.submission.generation
  plannedFrames : pending.plannedFrames = prefetch.submission.plannedFrames
  found : jobs[pending.handle]? = some job
  jobId : job.jobId = prefetch.submission.jobId
  jobFrames : job.plannedFrames = pending.plannedFrames
  not_taken : job.channel ≠ .taken

def generations (accepted : List AcceptedPrefetch) : List Nat :=
  accepted.map fun prefetch => prefetch.submission.generation

/-- Every accepted generation is in one place. -/
structure Sound (state : PlaybackPrefetcher) (accepted : List AcceptedPrefetch)
    (told : List PlaybackPrefetchCompletion) : Prop where
  increasing : (generations accepted).Pairwise (· < ·)
  bounded : ∀ generation ∈ generations accepted, generation ≤ state.generation
  owned : (told.map (·.generation) ++
    (state.ready.map (·.generation) ++ state.pending.map (·.generation))).Perm
      (generations accepted)
  answers : ∀ completion ∈ told ++ state.ready, ∃ prefetch ∈ accepted,
    Answers completion prefetch ∧ EndedIn state.jobs prefetch
  awaits : ∀ pending ∈ state.pending, ∃ prefetch ∈ accepted, ∃ job,
    Awaits state.jobs pending prefetch job
  handles : (state.pending.map (·.handle)).Nodup
  jobs : ∀ (handle : Nat) job, state.jobs[handle]? = some job → job.Sound

variable {state : PlaybackPrefetcher} {accepted : List AcceptedPrefetch}
  {told : List PlaybackPrefetchCompletion} {handle : Nat} {change : PrefetchJob → PrefetchJob}
  {job : PrefetchJob}

theorem start_sound : Sound .new [] [] :=
  ⟨.nil, by simp [generations], .refl _, by simp [PlaybackPrefetcher.new],
    by simp [PlaybackPrefetcher.new], by simp [PlaybackPrefetcher.new],
    by simp [PlaybackPrefetcher.new]⟩

/-! ### One job changes -/

theorem getElem?_modify_some {jobs : List PrefetchJob} {place : Nat}
    (h : jobs[place]? = some job) :
    (jobs.modify handle change)[place]? = some (if handle = place then change job else job) := by
  rw [List.getElem?_modify, h]
  split <;> rfl

theorem some_of_getElem?_modify {jobs : List PrefetchJob} {place : Nat}
    (h : (jobs.modify handle change)[place]? = some job) :
    ∃ before, jobs[place]? = some before ∧
      job = if handle = place then change before else before := by
  rw [List.getElem?_modify] at h
  cases hjob : jobs[place]? with
  | none =>
      rw [hjob] at h
      cases h
  | some before =>
      rw [hjob] at h
      exact ⟨before, rfl, (Option.some.inj h).symm⟩

/-- A step of a worker, or a cancellation. -/
theorem Sound.modify (h : Sound state accepted told)
    (hmoves : ∀ job : PrefetchJob, job.Sound → PrefetchJob.Moves job (change job)) :
    Sound { state with jobs := state.jobs.modify handle change } accepted told := by
  have hmoves' : ∀ (place : Nat) job, state.jobs[place]? = some job →
      PrefetchJob.Moves job (if handle = place then change job else job) := by
    intro place job hjob
    split
    · exact hmoves job (h.jobs place job hjob)
    · exact .refl (h.jobs place job hjob)
  refine ⟨h.increasing, h.bounded, h.owned, ?_, ?_, h.handles, ?_⟩
  · intro completion hmem
    obtain ⟨prefetch, hprefetch, hanswers, hended⟩ := h.answers completion hmem
    refine ⟨prefetch, hprefetch, hanswers, fun place hplace => ?_⟩
    obtain ⟨job, hjob, hjob_ended⟩ := hended place hplace
    exact ⟨_, getElem?_modify_some hjob, (hmoves' place job hjob).ended hjob_ended⟩
  · intro pending hmem
    obtain ⟨prefetch, hprefetch, job, hawaits⟩ := h.awaits pending hmem
    have hmoves := hmoves' _ _ hawaits.found
    refine ⟨prefetch, hprefetch, _, hawaits.handle, hawaits.generation, hawaits.plannedFrames,
      getElem?_modify_some hawaits.found, hmoves.jobId.trans hawaits.jobId,
      hmoves.plannedFrames.trans hawaits.jobFrames, fun htaken => ?_⟩
    exact hawaits.not_taken (hmoves.taken htaken)
  · intro place job hjob
    obtain ⟨before, hbefore, rfl⟩ := some_of_getElem?_modify hjob
    exact (hmoves' place before hbefore).sound

/-! ### Polling -/

/-- What is ready is delivered. -/
theorem Sound.drain (h : Sound state accepted told) :
    Sound { state with ready := [] } accepted (told ++ state.ready) := by
  refine ⟨h.increasing, h.bounded, ?_, ?_, h.awaits, h.handles, h.jobs⟩
  · have howned := h.owned
    rwa [← List.append_assoc, ← List.map_append] at howned
  · intro completion hmem
    rw [List.append_nil] at hmem
    exact h.answers completion hmem

/-- No two pending generations share a job. -/
theorem Sound.handle_ne (h : Sound state accepted told) {before after : List PendingPrefetch}
    {pending : PendingPrefetch} (hpending : state.pending = before ++ pending :: after) :
    ∀ other ∈ before ++ after, pending.handle ≠ other.handle := by
  have hnodup := h.handles
  rw [hpending, List.map_append, List.map_cons, List.perm_middle.nodup_iff, List.nodup_cons,
    ← List.map_append] at hnodup
  exact fun other hmem heq => hnodup.1 (heq ▸ List.mem_map_of_mem hmem)

/-- The result of a pending job is taken and delivered. -/
theorem Sound.collect (h : Sound state accepted told) {before after : List PendingPrefetch}
    {pending : PendingPrefetch} {completion : JobCompletion}
    (hpending : state.pending = before ++ pending :: after) (hready : state.ready = [])
    (hjob : state.jobs[pending.handle]? = some job) (hchannel : job.channel = .holds completion) :
    Sound { state with
        jobs := state.jobs.modify pending.handle PrefetchJob.take
        pending := before ++ after } accepted
      (told ++ [PlaybackPrefetcher.report pending completion]) := by
  have hended : ∀ prefetch : AcceptedPrefetch, EndedIn state.jobs prefetch →
      EndedIn (state.jobs.modify pending.handle PrefetchJob.take) prefetch := by
    intro prefetch hended place hplace
    obtain ⟨job, hjob, hjob_ended⟩ := hended place hplace
    refine ⟨_, getElem?_modify_some hjob, ?_⟩
    split
    · exact .inr rfl
    · exact hjob_ended
  have hhandles := h.handles
  rw [hpending, List.map_append, List.map_cons] at hhandles
  have hothers := h.handle_ne hpending
  refine ⟨h.increasing, h.bounded, ?_, ?_, ?_, ?_, ?_⟩
  · have howned := h.owned
    rw [hready, hpending] at howned
    refine List.Perm.trans ?_ howned
    rw [hready, List.map_append, List.append_assoc, List.map_nil, List.nil_append, List.nil_append,
      List.map_append, List.map_append, List.map_cons, List.map_cons, List.map_nil]
    have hmiddle := @List.perm_middle _ pending.generation (before.map (·.generation))
      (after.map (·.generation))
    exact List.Perm.append_left _ hmiddle.symm
  · intro report hmem
    rw [hready, List.append_nil] at hmem
    rcases List.mem_append.1 hmem with hmem | hmem
    · obtain ⟨prefetch, hprefetch, hanswers, hprefetch_ended⟩ :=
        h.answers report (List.mem_append_left _ hmem)
      exact ⟨prefetch, hprefetch, hanswers, hended prefetch hprefetch_ended⟩
    · obtain rfl := List.mem_singleton.1 hmem
      obtain ⟨prefetch, hprefetch, found, hawaits⟩ :=
        h.awaits pending (by rw [hpending]; exact List.mem_append_right _ List.mem_cons_self)
      obtain rfl : found = job := Option.some.inj (hawaits.found.symm.trans hjob)
      obtain ⟨hid, hframes⟩ := (h.jobs _ _ hjob).held completion hchannel
      refine ⟨prefetch, hprefetch, ⟨hawaits.generation, hid.trans hawaits.jobId,
        hawaits.plannedFrames, hframes.trans hawaits.jobFrames.le⟩, hended prefetch ?_⟩
      intro place hplace
      rw [hawaits.handle] at hplace
      obtain rfl := Option.some.inj hplace
      exact ⟨found, hjob, .inl ⟨completion, hchannel⟩⟩
  · intro other hmem
    obtain ⟨prefetch, hprefetch, found, hawaits⟩ := h.awaits other (by
      rw [hpending]
      rcases List.mem_append.1 hmem with hmem | hmem
      · exact List.mem_append_left _ hmem
      · exact List.mem_append_right _ (List.mem_cons_of_mem _ hmem))
    refine ⟨prefetch, hprefetch, found, hawaits.handle, hawaits.generation,
      hawaits.plannedFrames, ?_, hawaits.jobId, hawaits.jobFrames, hawaits.not_taken⟩
    have hsame := @getElem?_modify_some pending.handle PrefetchJob.take _ _ _ hawaits.found
    rwa [if_neg (hothers other hmem)] at hsame
  · rw [List.map_append]
    exact (List.perm_middle.nodup_iff.1 hhandles).of_cons
  · intro place job' hjob'
    obtain ⟨old, hold, rfl⟩ := some_of_getElem?_modify hjob'
    have hsound := h.jobs place old hold
    split
    · exact ⟨hsound.progress, hsound.total, hsound.rest, fun _ hc => by cases hc⟩
    · exact hsound

/-- Nothing was sent by the job of a handle. -/
def Silent (jobs : List PrefetchJob) (handle : Nat) : Prop :=
  ∃ job, jobs[handle]? = some job ∧ job.channel = .empty

/-- The sender of the job of a handle is gone. -/
def Broken (jobs : List PrefetchJob) (handle : Nat) : Prop :=
  ∃ job, jobs[handle]? = some job ∧ job.channel = .closed

theorem tryCompletion_run :
    PlaybackPrefetcher.tryCompletion handle state =
      (match (state.jobs[handle]?).map PrefetchJob.channel with
        | some (.holds completion) => do
            set { state with jobs := state.jobs.modify handle PrefetchJob.take }
            return some completion
        | some .empty => return none
        | _ => throw PlaybackPrefetcher.disconnectedError :
          PlaybackPrefetcher.Call (Option JobCompletion)) state := rfl

theorem tryCompletion_silent (h : Silent state.jobs handle) :
    PlaybackPrefetcher.tryCompletion handle state = .ok none state := by
  obtain ⟨job, hjob, hchannel⟩ := h
  rw [tryCompletion_run, hjob, Option.map_some, hchannel]
  rfl

theorem tryCompletion_holds {completion : JobCompletion} (hjob : state.jobs[handle]? = some job)
    (hchannel : job.channel = .holds completion) :
    PlaybackPrefetcher.tryCompletion handle state = .ok (some completion)
      { state with jobs := state.jobs.modify handle PrefetchJob.take } := by
  rw [tryCompletion_run, hjob, Option.map_some, hchannel]
  rfl

/-- The loop of a poll that meets no broken handle. -/
theorem pollPending_sound {kept rest : List PendingPrefetch}
    {completed : List PlaybackPrefetchCompletion} (h : Sound state accepted (told ++ completed))
    (hready : state.ready = []) (hpending : state.pending = kept ++ rest)
    (hkept : ∀ pending ∈ kept, Silent state.jobs pending.handle)
    (hclear : ∀ pending ∈ rest, ¬ Broken state.jobs pending.handle) :
    ∃ completed' last, PlaybackPrefetcher.pollPending kept completed rest state =
        .ok completed' last ∧ Sound last accepted (told ++ completed') ∧ last.ready = [] ∧
      ∀ pending ∈ last.pending, Silent last.jobs pending.handle := by
  induction rest generalizing state kept completed with
  | nil =>
      rw [List.append_nil] at hpending
      exact ⟨completed, state, rfl, h, hready, hpending ▸ hkept⟩
  | cons pending rest ih =>
      obtain ⟨prefetch, -, job, hawaits⟩ := h.awaits pending
        (by rw [hpending]; exact List.mem_append_right _ List.mem_cons_self)
      obtain ⟨hbroken, hclear⟩ := List.forall_mem_cons.1 hclear
      rw [PlaybackPrefetcher.pollPending]
      cases hchannel : job.channel with
      | taken => exact absurd hchannel hawaits.not_taken
      | closed => exact absurd ⟨job, hawaits.found, hchannel⟩ hbroken
      | empty =>
          have hsilent : Silent state.jobs pending.handle := ⟨job, hawaits.found, hchannel⟩
          rw [bind_of_ok (tryCompletion_silent hsilent)]
          refine ih h hready (by rw [hpending, List.append_assoc]; rfl) ?_ hclear
          intro other hmem
          rcases List.mem_append.1 hmem with hmem | hmem
          · exact hkept other hmem
          · obtain rfl := List.mem_singleton.1 hmem
            exact hsilent
      | holds completion =>
          rw [bind_of_ok (tryCompletion_holds hawaits.found hchannel)]
          have hcollect := h.collect hpending hready hawaits.found hchannel
          have hothers := h.handle_ne hpending
          rw [List.append_assoc] at hcollect
          refine ih hcollect hready rfl ?_ ?_
          · intro other hmem
            obtain ⟨found, hfound, hempty⟩ := hkept other hmem
            have hsame := @getElem?_modify_some pending.handle PrefetchJob.take _ _ _ hfound
            rw [if_neg (hothers other (List.mem_append_left _ hmem))] at hsame
            exact ⟨found, hsame, hempty⟩
          · rintro other hmem ⟨found, hfound, hclosed⟩
            obtain ⟨before, hbefore, heq⟩ := some_of_getElem?_modify hfound
            rw [if_neg (hothers other (List.mem_append_right _ hmem))] at heq
            exact hclear other hmem ⟨before, hbefore, heq ▸ hclosed⟩

/-- A poll that finds no broken handle leaves nothing that has ended. -/
theorem Sound.poll (h : Sound state accepted told)
    (hclear : ∀ pending ∈ state.pending, ¬ Broken state.jobs pending.handle) :
    ∃ completed last, PlaybackPrefetcher.poll state = .ok completed last ∧
      Sound last accepted (told ++ completed) ∧ last.ready = [] ∧
      ∀ pending ∈ last.pending, Silent last.jobs pending.handle :=
  pollPending_sound h.drain rfl rfl (fun _ hmem => absurd hmem List.not_mem_nil) hclear

/-! ### Submitting -/

theorem Sound.withActive (h : Sound state accepted told) (active : Option Nat) :
    Sound { state with active } accepted told :=
  ⟨h.increasing, h.bounded, h.owned, h.answers, h.awaits, h.handles, h.jobs⟩

theorem Sound.cancelActive (h : Sound state accepted told) :
    Sound state.cancelActive accepted told := by
  unfold PlaybackPrefetcher.cancelActive
  cases state.active with
  | none => exact h
  | some handle =>
      have hcancelled : Sound { state with jobs := state.jobs.modify handle PrefetchJob.cancel }
          accepted told := h.modify fun job hjob => hjob.cancel
      exact hcancelled.withActive none

theorem cancelActive_length (state : PlaybackPrefetcher) :
    state.cancelActive.jobs.length = state.jobs.length := by
  unfold PlaybackPrefetcher.cancelActive
  cases state.active with
  | none => rfl
  | some handle => exact List.length_modify _ _ _

theorem Sound.raise (h : Sound state accepted told) :
    Sound { state with generation := state.generation + 1 } accepted told :=
  ⟨h.increasing, fun generation hmem => Nat.le_succ_of_le (h.bounded generation hmem), h.owned,
    h.answers, h.awaits, h.handles, h.jobs⟩

theorem generations_append (prefetch : AcceptedPrefetch) :
    generations (accepted ++ [prefetch]) =
      generations accepted ++ [prefetch.submission.generation] :=
  List.map_append

variable {generation : Nat} {prefetch : AcceptedPrefetch}

theorem increasing_append (h : (generations accepted).Pairwise (· < ·))
    (hfresh : ∀ old ∈ generations accepted, old < prefetch.submission.generation) :
    (generations (accepted ++ [prefetch])).Pairwise (· < ·) := by
  rw [generations_append, List.pairwise_append]
  refine ⟨h, List.pairwise_singleton _ _, fun old hold new hnew => ?_⟩
  rw [List.mem_singleton.1 hnew]
  exact hfresh old hold

theorem bounded_append (h : ∀ old ∈ generations accepted, old ≤ generation)
    (hnew : prefetch.submission.generation ≤ generation) :
    ∀ old ∈ generations (accepted ++ [prefetch]), old ≤ generation := by
  intro old hold
  rw [generations_append] at hold
  rcases List.mem_append.1 hold with hold | hold
  · exact h old hold
  · rw [List.mem_singleton.1 hold]
    exact hnew

/-- A generation without frames is ready. -/
theorem Sound.addReady (h : Sound state accepted told) (jobId : JobId)
    (hfresh : ∀ old ∈ generations accepted, old < generation)
    (hgeneration : generation ≤ state.generation) :
    Sound { state with ready := state.ready ++ [⟨generation, jobId, 0, 0, .succeeded, none⟩] }
      (accepted ++ [⟨⟨generation, jobId, 0, false⟩, none⟩]) told := by
  refine ⟨increasing_append h.increasing hfresh, bounded_append h.bounded hgeneration, ?_, ?_, ?_,
    h.handles, h.jobs⟩
  · rw [generations_append, List.map_append, List.append_assoc, ← List.append_assoc]
    refine List.Perm.trans (List.Perm.append_left _ List.perm_append_comm) ?_
    rw [← List.append_assoc]
    refine List.Perm.append_right _ ?_
    rw [List.append_assoc]
    exact h.owned
  · intro completion hmem
    rw [← List.append_assoc] at hmem
    rcases List.mem_append.1 hmem with hmem | hmem
    · obtain ⟨prefetch, hprefetch, hanswers, hended⟩ := h.answers completion hmem
      exact ⟨prefetch, List.mem_append_left _ hprefetch, hanswers, hended⟩
    · rw [List.mem_singleton.1 hmem]
      exact ⟨_, List.mem_append_right _ List.mem_cons_self, ⟨rfl, rfl, rfl, le_rfl⟩,
        fun handle hhandle => by cases hhandle⟩
  · intro pending hmem
    obtain ⟨prefetch, hprefetch, job, hawaits⟩ := h.awaits pending hmem
    exact ⟨prefetch, List.mem_append_left _ hprefetch, job, hawaits⟩

theorem getElem?_append_some {jobs : List PrefetchJob} {place : Nat} (more : List PrefetchJob)
    (h : jobs[place]? = some job) : (jobs ++ more)[place]? = some job := by
  rw [List.getElem?_append_left (List.getElem?_eq_some_iff.1 h).1, h]

/-- A new job is pending. -/
theorem Sound.addPending (h : Sound state accepted told) (jobId : JobId) {plan : List RationalTime}
    {progress : JobProgress} (hprogress : JobProgress.withTotal plan.length = .ok progress)
    (hfresh : ∀ old ∈ generations accepted, old < generation)
    (hgeneration : generation ≤ state.generation) :
    Sound { state with
        active := some state.jobs.length
        pending := state.pending ++ [⟨generation, plan.length, state.jobs.length⟩]
        jobs := state.jobs ++ [⟨jobId, plan, plan.length, 0, progress, false, .empty⟩] }
      (accepted ++ [⟨⟨generation, jobId, plan.length, true⟩, some state.jobs.length⟩]) told := by
  obtain ⟨-, -, hprogress⟩ := bind_eq_ok.1 hprogress
  obtain rfl := pure_eq_ok.1 hprogress
  refine ⟨increasing_append h.increasing hfresh, bounded_append h.bounded hgeneration, ?_, ?_, ?_,
    ?_, ?_⟩
  · rw [generations_append, List.map_append, ← List.append_assoc, ← List.append_assoc]
    refine List.Perm.append_right _ ?_
    rw [List.append_assoc]
    exact h.owned
  · intro completion hmem
    obtain ⟨prefetch, hprefetch, hanswers, hended⟩ := h.answers completion hmem
    refine ⟨prefetch, List.mem_append_left _ hprefetch, hanswers, fun handle hhandle => ?_⟩
    obtain ⟨job, hjob, hjob_ended⟩ := hended handle hhandle
    exact ⟨job, getElem?_append_some _ hjob, hjob_ended⟩
  · intro pending hmem
    rcases List.mem_append.1 hmem with hmem | hmem
    · obtain ⟨prefetch, hprefetch, job, hawaits⟩ := h.awaits pending hmem
      exact ⟨prefetch, List.mem_append_left _ hprefetch, job, hawaits.handle, hawaits.generation,
        hawaits.plannedFrames, getElem?_append_some _ hawaits.found, hawaits.jobId,
        hawaits.jobFrames, hawaits.not_taken⟩
    · rw [List.mem_singleton.1 hmem]
      exact ⟨_, List.mem_append_right _ List.mem_cons_self, _, rfl, rfl, rfl,
        List.getElem?_concat_length, rfl, rfl, fun htaken => by cases htaken⟩
  · rw [List.map_append, List.nodup_append]
    refine ⟨h.handles, List.nodup_singleton _, ?_⟩
    intro handle hmem last hlast heq
    obtain ⟨pending, hpending, rfl⟩ := List.mem_map.1 hmem
    obtain ⟨prefetch, -, job, hawaits⟩ := h.awaits pending hpending
    have hlt := (List.getElem?_eq_some_iff.1 hawaits.found).1
    rw [List.map_singleton, List.mem_singleton] at hlast
    dsimp only at hlast
    omega
  · intro handle job hjob
    dsimp only at hjob
    rw [List.getElem?_append] at hjob
    split at hjob
    · exact h.jobs handle job hjob
    · rw [List.getElem?_singleton] at hjob
      split at hjob
      · obtain rfl := Option.some.inj hjob
        exact ⟨rfl, rfl, rfl, fun _ hc => by cases hc⟩
      · cases hjob

/-- Handing the frames over. -/
theorem Sound.publish (h : Sound state accepted told) (jobId : JobId) (plan : List RationalTime)
    (pool : Option (Except Error Unit)) (hfresh : ∀ old ∈ generations accepted, old < generation)
    (hgeneration : generation ≤ state.generation) :
    Ensures (PlaybackPrefetcher.publish generation jobId plan pool) state
      (fun _ last => Sound last (accepted ++ [⟨⟨generation, jobId, plan.length, !plan.isEmpty⟩,
        if (!plan.isEmpty) = true then some state.jobs.length else none⟩]) told)
      fun last => Sound last accepted told := by
  unfold PlaybackPrefetcher.publish
  cases plan with
  | nil => exact h.addReady jobId hfresh hgeneration
  | cons frame frames =>
      rw [if_neg (List.cons_ne_nil _ _)]
      unfold PlaybackPrefetcher.submitJob
      cases pool with
      | none => exact h
      | some answer =>
          cases hprogress : JobProgress.withTotal (frame :: frames).length with
          | error error => exact h
          | ok progress =>
              cases answer with
              | error error => exact h
              | ok _ => exact h.addPending jobId hprogress hfresh hgeneration

/-- A submission is accepted with a new generation, or leaves what is owned as it was. -/
theorem Sound.submit (h : Sound state accepted told) (jobId : JobId) (plan : List RationalTime)
    (pool : Option (Except Error Unit)) :
    Ensures (PlaybackPrefetcher.submit jobId plan pool) state
      (fun submission last => Sound last (accepted ++ [⟨submission,
        if submission.queued = true then some state.jobs.length else none⟩]) told)
      fun last => Sound last accepted told := by
  have hcancel := h.cancelActive
  unfold PlaybackPrefetcher.submit
  refine Ensures.through (fun _ last => last = state.cancelActive) rfl ?_
  rintro _ _ rfl
  refine Ensures.through (fun generation last =>
    generation = state.cancelActive.generation + 1 ∧
      last = { state.cancelActive with generation := state.cancelActive.generation + 1 }) ?_ ?_
  · exact Ensures.get (Ensures.check hcancel fun _ => Ensures.put (Ensures.ret ⟨rfl, rfl⟩))
  rintro _ _ ⟨rfl, rfl⟩
  refine Ensures.bind (hcancel.raise.publish jobId plan pool
    (fun old hold => Nat.lt_succ_of_le (hcancel.bounded old hold)) le_rfl) ?_
  intro _ last hlast
  dsimp only at hlast
  rw [cancelActive_length] at hlast
  exact Ensures.ret hlast

/-! ### Runs -/

variable {session : PrefetchSession}

/-- No pending handle is broken. -/
def Clear (session : PrefetchSession) : Prop :=
  ∀ pending ∈ session.state.pending, ¬ Broken session.state.jobs pending.handle

/-- No poll of the run finds a broken handle. -/
def ClearRun : PrefetchSession → List PrefetchAction → Prop
  | _, [] => True
  | session, action :: actions =>
      (action = .poll → session.Clear) ∧ ClearRun (session.step action) actions

/-- The session keeps what it owes to its caller. -/
def Kept (session : PrefetchSession) : Prop :=
  Sound session.state session.accepted session.delivered

theorem Kept.step (h : session.Kept) (action : PrefetchAction)
    (hclear : action = .poll → session.Clear) : (session.step action).Kept := by
  unfold Kept at h ⊢
  cases action with
  | submit jobId plan pool =>
      rcases (h.submit jobId plan pool).outcome with ⟨submission, last, hcall, hlast⟩ |
        ⟨error, last, hcall, hlast⟩
      · simp only [PrefetchSession.step, hcall]
        exact hlast
      · simp only [PrefetchSession.step, hcall]
        exact hlast
  | cancel => exact h.cancelActive
  | poll =>
      obtain ⟨completed, last, hcall, hlast, -, -⟩ := h.poll (hclear rfl)
      simp only [PrefetchSession.step, hcall]
      exact hlast
  | work handle answer => exact h.modify fun job hjob => hjob.work answer
  | panic handle => exact h.modify fun job hjob => hjob.panic
  | vanish handle => exact h.modify fun job hjob => hjob.vanish

theorem Kept.run (h : session.Kept) (actions : List PrefetchAction)
    (hclear : session.ClearRun actions) : (session.run actions).Kept := by
  induction actions generalizing session with
  | nil => exact h
  | cons action actions ih => exact ih (h.step action hclear.1) hclear.2

/-- How often a generation was delivered. -/
def timesDelivered (session : PrefetchSession) (generation : Nat) : Nat :=
  (session.delivered.map (·.generation)).count generation

/-- Every submission whose job has ended was reported once. -/
def Reported (session : PrefetchSession) : Prop :=
  ∀ prefetch ∈ session.accepted, EndedIn session.state.jobs prefetch →
    session.timesDelivered prefetch.submission.generation = 1

theorem Kept.count_eq (h : session.Kept) {prefetch : AcceptedPrefetch}
    (hmem : prefetch ∈ session.accepted) :
    session.timesDelivered prefetch.submission.generation +
      ((session.state.ready.map (·.generation)).count prefetch.submission.generation +
        (session.state.pending.map (·.generation)).count prefetch.submission.generation) = 1 := by
  have hnodup : (generations session.accepted).Nodup := h.increasing.imp fun hlt => hlt.ne
  have hone := List.count_eq_one_of_mem hnodup (List.mem_map_of_mem hmem)
  rw [← h.owned.count_eq, List.count_append, List.count_append] at hone
  exact hone

/-- A pending generation of a silent job has not ended. -/
theorem Kept.reported (h : session.Kept) (hready : session.state.ready = [])
    (hsilent : ∀ pending ∈ session.state.pending,
      Silent session.state.jobs pending.handle) : session.Reported := by
  intro prefetch hmem hended
  have hcount := h.count_eq hmem
  rw [hready, List.map_nil, List.count_nil] at hcount
  have hnone : (session.state.pending.map (·.generation)).count
      prefetch.submission.generation = 0 := by
    rw [List.count_eq_zero]
    intro hin
    obtain ⟨pending, hpending, heq⟩ := List.mem_map.1 hin
    obtain ⟨other, hother, job, hawaits⟩ := h.awaits pending hpending
    have hnodup : (generations session.accepted).Nodup := h.increasing.imp fun hlt => hlt.ne
    obtain rfl : other = prefetch := List.inj_on_of_nodup_map hnodup hother hmem
      (hawaits.generation.symm.trans heq)
    obtain ⟨found, hfound, hfound_ended⟩ := hended _ hawaits.handle
    obtain ⟨silent, hsome, hempty⟩ := hsilent pending hpending
    obtain rfl : found = silent := Option.some.inj (hfound.symm.trans hsome)
    exact PrefetchJob.not_ended_of_empty hempty hfound_ended
  omega

/-! ## The contract -/

/-- In every run whose polls find no broken handle: generations strictly increase, what is delivered
tells of a submission whose job has ended and no more frames than planned, nothing is delivered
twice, and the next such poll succeeds and leaves every submission whose job has ended reported
once. -/
theorem prefetch_reported_once (actions : List PrefetchAction) (hclear : start.ClearRun actions) :
    (generations (start.run actions).accepted).Pairwise (· < ·) ∧
    (∀ completion ∈ (start.run actions).delivered, ∃ prefetch ∈ (start.run actions).accepted,
      Answers completion prefetch ∧ EndedIn (start.run actions).state.jobs prefetch) ∧
    (∀ prefetch ∈ (start.run actions).accepted,
      (start.run actions).timesDelivered prefetch.submission.generation ≤ 1) ∧
    ((start.run actions).Clear →
      (∃ completed last, PlaybackPrefetcher.poll (start.run actions).state = .ok completed last) ∧
      ((start.run actions).step .poll).Reported) := by
  have hstart : start.Kept := start_sound
  have hkept := hstart.run actions hclear
  refine ⟨hkept.increasing, fun completion hmem => ?_, fun prefetch hmem => ?_, fun hnow => ?_⟩
  · exact hkept.answers completion (List.mem_append_left _ hmem)
  · have hcount := hkept.count_eq hmem
    omega
  · obtain ⟨completed, last, hcall, hlast, hready, hsilent⟩ := Sound.poll hkept hnow
    refine ⟨⟨completed, last, hcall⟩, ?_⟩
    simp only [step, hcall]
    exact Kept.reported hlast hready hsilent

/-- One frame at 24 frames in a second. -/
def submitFrame : PrefetchAction :=
  .submit ⟨1⟩ [.zero (.integer 24 Timebase.pos_24 Timebase.fits_24)] (some (.ok ()))

theorem prefetch_reported_once_frame :
    ((start.run [submitFrame, .work 0 (.ok ()), .work 0 (.ok ())]).step .poll).Reported := by
  have hclear : start.ClearRun [submitFrame, .work 0 (.ok ()), .work 0 (.ok ())] :=
    ⟨fun h => by (cases h), fun h => by (cases h), fun h => by (cases h), trivial⟩
  refine ((prefetch_reported_once _ hclear).2.2.2 ?_).2
  rintro pending hmem ⟨job, hjob, hclosed⟩
  obtain rfl := List.mem_singleton.1 hmem
  cases hjob
  cases hclosed

/-- A generation without frames is lost where the poll that would report it meets the broken handle
of another. -/
theorem broken_handle_loses_completion :
    ¬ ∀ actions : List PrefetchAction, ((start.run actions).step .poll).Reported := by
  intro h
  have hlost := h [submitFrame, .submit ⟨2⟩ [] none, .vanish 0] ⟨⟨2, ⟨2⟩, 0, false⟩, none⟩
    (List.mem_cons_of_mem _ List.mem_cons_self) (fun handle hhandle => by cases hhandle)
  exact absurd hlost (by decide)

end PrefetchSession

end Engine
end Superi

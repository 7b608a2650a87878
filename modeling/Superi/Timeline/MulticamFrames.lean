import Superi.Timeline.MulticamRecord
import Superi.Timeline.Settled

/-!
# MulticamFrames — multicam mutations of a published project

The programs of a project stay programs that the operations of a multicam clip make, publishing a
draft shows what the draft shows, and the resolution of a frame in a valid project finds everything
it takes for granted.
-/

namespace Superi
namespace Editorial

open Core Result Keyed Playback Polyline Stateful

/-! ## Authored programs -/

/-- Every program is filed under its clip, and the operations of a multicam clip made it. -/
def Timeline.ProgramsAuthored (timeline : Timeline) : Prop :=
  ∀ clipId clip, timeline.multicamClip clipId = some clip → clip.clipId = clipId ∧ clip.Authored

def ProgramsAuthored (timelines : Std.ExtTreeMap TimelineId Timeline) : Prop :=
  ∀ (timelineId : TimelineId) (timeline : Timeline),
    timelines[timelineId]? = some timeline → timeline.ProgramsAuthored

variable {draft before after : ProjectDraft} {timelineId : TimelineId} {clipId : ClipId}
  {timeline : Timeline} {clip : MulticamClip}

theorem Timeline.ProgramsAuthored.put (h : timeline.ProgramsAuthored) (hid : clip.clipId = clipId)
    (hclip : clip.Authored) : (timeline.putMulticamClip clipId clip).ProgramsAuthored := by
  intro otherId other hother
  rw [multicamClip, putMulticamClip, getElem?_insert_eq] at hother
  split at hother
  · rename_i heq
    cases hother
    exact ⟨hid.trans heq.symm, hclip⟩
  · exact h otherId other hother

theorem Timeline.ProgramsAuthored.remove (h : timeline.ProgramsAuthored) :
    (timeline.removeMulticamClip clipId).ProgramsAuthored := by
  intro otherId other hother
  rw [multicamClip, removeMulticamClip, getElem?_erase_eq] at hother
  split at hother
  · cases hother
  · exact h otherId other hother

theorem ProgramsAuthored.set (h : ProgramsAuthored draft.timelines)
    (htimeline : timeline.ProgramsAuthored) :
    ProgramsAuthored (draft.setTimeline timelineId timeline).timelines := by
  intro otherId other hother
  rw [ProjectDraft.setTimeline, getElem?_insert_eq] at hother
  split at hother
  · cases hother
    exact htimeline
  · exact h otherId other hother

theorem ProgramsAuthored.edit {change : MulticamClip → Except Error MulticamClip}
    (h : ProgramsAuthored before.timelines)
    (hchange : ∀ clip next, clip.Authored → change clip = .ok next →
      next.clipId = clip.clipId ∧ next.Authored)
    (hedit : editMulticamClip before timelineId clipId change = .ok after) :
    ProgramsAuthored after.timelines := by
  obtain ⟨timeline, clip, next, htimeline, hclip, hnext, rfl⟩ := editMulticamClip_eq_ok.1 hedit
  have hprograms := h timelineId timeline htimeline
  obtain ⟨hid, hauthored⟩ := hprograms clipId clip hclip
  obtain ⟨hsame, hmade⟩ := hchange clip next hauthored hnext
  exact h.set (hprograms.put (hsame.trans hid) hmade)

theorem timelineMut_eq_ok : draft.timelineMut timelineId = .ok timeline ↔
    draft.timelines[timelineId]? = some timeline := okOr_eq_ok

/-- Every mutation keeps the programs of a draft authored. -/
theorem ProgramsAuthored.apply {mutation : MulticamMutation} (h : ProgramsAuthored before.timelines)
    (hmutation : applyMulticamMutation before mutation = .ok after) :
    ProgramsAuthored after.timelines := by
  cases mutation with
  | setSource timelineId source =>
      simp only [applyMulticamMutation, Timeline.setMulticamSource, bind_eq_ok, pure_eq_ok,
        timelineMut_eq_ok] at hmutation
      obtain ⟨timeline, htimeline, _, ⟨_, -, rfl⟩, rfl⟩ := hmutation
      exact h.set (h timelineId timeline htimeline)
  | setSyncMethod timelineId syncMethod =>
      simp only [applyMulticamMutation, bind_eq_ok, pure_eq_ok, timelineMut_eq_ok] at hmutation
      obtain ⟨timeline, htimeline, _, -, _, -, rfl⟩ := hmutation
      exact h.set (h timelineId timeline htimeline)
  | attachClip timelineId clipId initialAngleId audioPolicy =>
      simp only [applyMulticamMutation, Timeline.upsertMulticamClip, bind_eq_ok, pure_eq_ok,
        timelineMut_eq_ok] at hmutation
      obtain ⟨_, -, sourceRange, -, clip, hclip, timeline, htimeline, next, ⟨target, -, hnext⟩,
        rfl⟩ := hmutation
      cases hsource : target.source with
      | media id => simp [hsource] at hnext
      | timeline id =>
          simp only [hsource, pure_eq_ok] at hnext
          subst hnext
          exact h.set ((h timelineId timeline htimeline).put rfl (.new hclip))
  | switchAt timelineId clipId recordTime angleId =>
      simp only [applyMulticamMutation, bind_eq_ok] at hmutation
      obtain ⟨_, -, _, -, _, -, _, -, hedit⟩ := hmutation
      exact h.edit (fun _ _ hclip hnext => ⟨SwitchCall.perform_clipId hnext, .call _ hclip hnext⟩)
        hedit
  | moveCut timelineId clipId origin destination =>
      simp only [applyMulticamMutation, bind_eq_ok] at hmutation
      obtain ⟨_, -, _, -, _, -, hedit⟩ := hmutation
      exact h.edit (fun _ _ hclip hnext => ⟨SwitchCall.perform_clipId hnext, .call _ hclip hnext⟩)
        hedit
  | setAudioPolicy timelineId clipId audioPolicy =>
      refine h.edit (fun clip next hclip hnext => ?_) hmutation
      rw [pure_eq_ok] at hnext
      subst hnext
      exact ⟨rfl, hclip.policy audioPolicy⟩
  | detachClip timelineId clipId =>
      simp only [applyMulticamMutation, bind_eq_ok, pure_eq_ok, timelineMut_eq_ok] at hmutation
      obtain ⟨timeline, htimeline, _, -, rfl⟩ := hmutation
      exact h.set (h timelineId timeline htimeline).remove

/-! ## Publishing -/

section Publishing

variable {project published : EditorialProject} {target : MulticamTarget}

/-- The candidate of a draft has the targets of the draft. -/
theorem findMulticamTarget_candidate :
    findMulticamTarget (project.candidate draft).timelines timelineId clipId = .ok target ↔
      findMulticamTarget draft.timelines timelineId clipId = .ok target := by
  have hget : (project.candidate draft).timelines[timelineId]? =
      draft.timelines[timelineId]?.map Timeline.reconcile :=
    Std.ExtTreeMap.getElem?_map
  simp only [findMulticamTarget_eq_ok, hget, Option.map_eq_some_iff]
  constructor
  · rintro ⟨_, ⟨timeline, htimeline, rfl⟩, hclip, hstate, hsource⟩
    rw [Timeline.multicamClip_reconcile, Option.filter_eq_some_iff] at hstate
    exact ⟨timeline, htimeline, hclip, hstate.1, hsource⟩
  · rintro ⟨timeline, htimeline, hclip, hstate, hsource⟩
    refine ⟨_, ⟨timeline, htimeline, rfl⟩, hclip, ?_, hsource⟩
    rw [Timeline.multicamClip_reconcile, Option.filter_eq_some_iff]
    exact ⟨hstate, decide_eq_true (Timeline.mem_existingClips hclip)⟩

/-- What is shown depends on the targets only. -/
theorem shownAngle_congr {timelines other : Std.ExtTreeMap TimelineId Timeline}
    (h : ∀ target, findMulticamTarget timelines timelineId clipId = .ok target ↔
      findMulticamTarget other timelineId clipId = .ok target) :
    shownAngle timelines timelineId clipId = shownAngle other timelineId clipId := by
  funext recordTime
  cases htarget : findMulticamTarget timelines timelineId clipId with
  | ok target => rw [shownAngle_of_target htarget, shownAngle_of_target ((h target).1 htarget)]
  | error error =>
      cases hother : findMulticamTarget other timelineId clipId with
      | ok target =>
          rw [(h target).2 hother] at htarget
          cases htarget
      | error error' => rw [shownAngle_of_error htarget, shownAngle_of_error hother]

theorem ProgramsAuthored.candidate (h : ProgramsAuthored draft.timelines) :
    ProgramsAuthored (project.candidate draft).timelines := by
  intro timelineId timeline htimeline clipId clip hclip
  have hget : (project.candidate draft).timelines[timelineId]? =
      draft.timelines[timelineId]?.map Timeline.reconcile :=
    Std.ExtTreeMap.getElem?_map
  rw [hget, Option.map_eq_some_iff] at htimeline
  obtain ⟨old, hold, rfl⟩ := htimeline
  rw [Timeline.multicamClip_reconcile, Option.filter_eq_some_iff] at hclip
  exact h timelineId old hold clipId clip hclip.1

/-- A batch of one mutation publishes the candidate of the draft the mutation leaves, which is
valid. -/
theorem applyMulticamMutationBatch_single {revision : Nat} {mutation : MulticamMutation}
    {result : MulticamMutationBatchResult}
    (h : applyMulticamMutationBatch project revision [mutation] = .ok (published, result)) :
    ∃ after, applyMulticamMutation project.draft mutation = .ok after ∧
      published = project.candidate after ∧ published.validate = .ok () := by
  unfold applyMulticamMutationBatch EditorialProject.edit at h
  simp only [bind_eq_ok, pure_eq_ok, Prod.exists, Prod.mk.injEq, List.foldlM_cons,
    List.foldlM_nil, applyMulticamStep, withErrorContext_eq_ok] at h
  obtain ⟨_, -, candidate, outcomes, ⟨_, -, draft, reported, ⟨_, _, ⟨after, hafter, rfl, rfl⟩,
    rfl, rfl⟩, _, -, _, hvalid, rfl, rfl⟩, rfl, rfl⟩ := h
  exact ⟨after, hafter, rfl, hvalid⟩

end Publishing

/-! ## Resolution -/

section Resolution

variable {project : EditorialProject} {target : MulticamTarget}

theorem validateMulticam_of_validate (h : project.validate = .ok ()) :
    project.validateMulticam = .ok () := by
  simp only [EditorialProject.validate, bind_eq_ok] at h
  obtain ⟨_, -, _, -, _, -, _, -, _, -, _, -, _, -, hmulticam⟩ := h
  exact hmulticam

/-- In a valid project every clip of an angle is found on the timeline of the angle. -/
theorem findClip_of_validate (h : project.validate = .ok ()) {id : TimelineId} {timeline : Timeline}
    {source : MulticamSource} {angle : MulticamAngle} {clipId : ClipId}
    (htimeline : project.timelines[id]? = some timeline)
    (hsource : timeline.multicamSource = some source) (hangle : angle ∈ source.angles)
    (hclip : clipId ∈ angle.sourceClips) : ∃ clip, timeline.findClip clipId = some clip := by
  have hmulticam := validateMulticam_of_validate h
  simp only [EditorialProject.validateMulticam, bind_eq_ok] at hmulticam
  obtain ⟨_, hsources, -⟩ := hmulticam
  obtain ⟨ids, _, hvalid⟩ := exists_ok_of_foldlM hsources timeline (mem_valuesOf.2 ⟨id, htimeline⟩)
  rw [EditorialProject.validateMulticamSource, hsource] at hvalid
  simp only [bind_eq_ok] at hvalid
  obtain ⟨_, -, hangles⟩ := hvalid
  obtain ⟨ids, _, hvalid⟩ := exists_ok_of_foldlM hangles angle hangle
  simp only [EditorialProject.validateMulticamAngle, bind_eq_ok] at hvalid
  obtain ⟨_, -, ranges, hranges, -⟩ := hvalid
  obtain ⟨range, hrange⟩ := exists_ok_of_mapM hranges hclip
  simp only [EditorialProject.multicamSourceRange, bind_eq_ok, okOr_eq_ok] at hrange
  obtain ⟨clip, hfound, -⟩ := hrange
  exact ⟨clip, hfound⟩

/-- In a valid project the timeline a target nests has synchronized angles, and every angle of the
program is one of them. -/
theorem angles_of_validate (h : project.validate = .ok ())
    (hauthored : ProgramsAuthored project.timelines)
    (htarget : findMulticamTarget project.timelines timelineId clipId = .ok target) :
    ∃ timeline source, project.timelines[target.sourceTimelineId]? = some timeline ∧
      timeline.multicamSource = some source ∧
      ∀ switch ∈ target.state.switches, ∃ angle, source.angle switch.angleId = some angle := by
  obtain ⟨owner, howner, hclip, hstate, hsource⟩ := findMulticamTarget_eq_ok.1 htarget
  have hid : target.state.clipId = clipId := (hauthored timelineId owner howner _ _ hstate).1
  have hmulticam := validateMulticam_of_validate h
  simp only [EditorialProject.validateMulticam, bind_eq_ok] at hmulticam
  obtain ⟨_, -, htargets⟩ := hmulticam
  have hvalid := forM_eq_ok.1 (forM_eq_ok.1 htargets owner (mem_valuesOf.2 ⟨timelineId, howner⟩))
    target.state (mem_valuesOf.2 ⟨clipId, hstate⟩)
  simp only [EditorialProject.validateMulticamTarget, hid, hclip, bind_eq_ok, okOr_eq_ok] at hvalid
  obtain ⟨clip, hfound, hvalid⟩ := hvalid
  obtain rfl : target.clip = clip := Option.some.inj hfound
  simp only [hsource, bind_eq_ok, okOr_eq_ok] at hvalid
  obtain ⟨timeline, htimeline, source, hangles, _, -, complete, -, hagainst⟩ := hvalid
  refine ⟨timeline, source, htimeline, hangles, fun switch hswitch => ?_⟩
  simp only [MulticamClip.validateAgainst, bind_eq_ok] at hagainst
  obtain ⟨_, -, _, -, _, hswitches, -⟩ := hagainst
  have hangle := forM_eq_ok.1 hswitches switch hswitch
  simp only [MulticamClip.requireAngle, bind_eq_ok, okOr_eq_ok] at hangle
  obtain ⟨angle, hfound, -⟩ := hangle
  exact ⟨angle, hfound⟩

theorem expected_of_eq_some {α : Type} {value : Option α} {a : α} (h : value = some a) :
    expected value = pure a := by
  rw [h]
  rfl

/-- The search through the clips of an angle does not panic when every clip is found. -/
theorem selectSourceClip_answers {timeline : Timeline} (sourceTime : RationalTime)
    {ids : List ClipId} (h : ∀ id ∈ ids, ∃ clip, timeline.findClip id = some clip) :
    (selectSourceClip timeline sourceTime ids).run ≠ none := by
  induction ids with
  | nil => exact Option.some_ne_none _
  | cons id rest ih =>
      obtain ⟨clip, hclip⟩ := h id List.mem_cons_self
      rw [selectSourceClip, expected_of_eq_some hclip, pure_bind]
      split
      · exact Option.some_ne_none _
      · exact ih fun other hother => h other (List.mem_cons_of_mem _ hother)

theorem selectAngle_eq_ok {timelines : Std.ExtTreeMap TimelineId Timeline}
    {recordTime : RationalTime} {selected : MulticamTarget × RationalTime × MulticamAngleId}
    (h : selectAngle timelines timelineId clipId recordTime = .ok selected) :
    findMulticamTarget timelines timelineId clipId = .ok selected.1 ∧
      selected.1.state.angleAt selected.2.1 = .ok selected.2.2 ∧
      shownAngle timelines timelineId clipId recordTime = some selected.2.2 := by
  have hshown : shownAngle timelines timelineId clipId recordTime = some selected.2.2 := by
    rw [shownAngle, h]
    rfl
  simp only [selectAngle, MulticamTarget.select, bind_eq_ok, pure_eq_ok] at h
  obtain ⟨target, htarget, _, ⟨mapped, -, angle, hangle, rfl⟩, rfl⟩ := h
  exact ⟨htarget, hangle, hshown⟩

/-- In a valid project the resolution of a frame never panics, and the frame it returns has the
angle that its record instant shows. -/
theorem resolveMulticamFrame_shows (h : project.validate = .ok ())
    (hauthored : ProgramsAuthored project.timelines) (timelineId : TimelineId) (clipId : ClipId)
    (recordTime : RationalTime) :
    (resolveMulticamFrame project timelineId clipId recordTime).run ≠ none ∧
      ∀ frame, (resolveMulticamFrame project timelineId clipId recordTime).run = some (.ok frame) →
        shownAngle project.timelines timelineId clipId recordTime = some frame.angleId := by
  cases hselected : selectAngle project.timelines timelineId clipId recordTime with
  | error error =>
      have hrun : (resolveMulticamFrame project timelineId clipId recordTime).run =
          some (.error error) := by
        unfold resolveMulticamFrame
        rw [hselected]
        rfl
      rw [hrun]
      exact ⟨Option.some_ne_none _, fun frame hframe => nomatch hframe⟩
  | ok selected =>
      obtain ⟨target, time, angleId⟩ := selected
      obtain ⟨htarget, hangle, hshown⟩ := selectAngle_eq_ok hselected
      obtain ⟨timeline, source, htimeline, hsource, hangles⟩ := angles_of_validate h hauthored htarget
      obtain ⟨switch, hswitch, rfl⟩ := angleAt_eq_ok.1 hangle
      obtain ⟨angle, hfound⟩ := hangles switch (List.mem_of_find?_eq_some hswitch)
      have hclips : ∀ id ∈ angle.sourceClips, ∃ clip, timeline.findClip id = some clip := fun id hid =>
        findClip_of_validate h htimeline hsource (List.mem_of_find?_eq_some hfound) hid
      have hanswers := selectSourceClip_answers time hclips
      unfold resolveMulticamFrame
      rw [hselected, Machine.lift_ok, pure_bind]
      simp only [expected_of_eq_some (show project.timeline target.sourceTimelineId = some timeline
        from htimeline), expected_of_eq_some hsource, expected_of_eq_some hfound, pure_bind]
      refine ⟨fun hnone => ?_, fun frame hframe => ?_⟩
      · simp only [Machine.run_bind_eq_none, Machine.run_lift_ne_none, false_or, hanswers] at hnone
        obtain ⟨_, -, _, -, _, -, hpure⟩ := hnone
        cases hpure
      · simp only [Machine.run_bind_eq_ok] at hframe
        obtain ⟨_, -, _, -, _, -, hpure⟩ := hframe
        cases hpure
        exact hshown

end Resolution

/-! ## Record time and source time agree -/

/-- `r` is one of two instants or lies between them, in either order. -/
def Between (origin destination r : RationalTime) : Prop :=
  origin ≤ r ∧ r ≤ destination ∨ destination ≤ r ∧ r ≤ origin

section Directions

variable {timelines : Std.ExtTreeMap TimelineId Timeline} {target : MulticamTarget}

/-- On a clip that shows nothing twice a cut sweeps over instants between its two places only. -/
theorem Sweeps.between {origin destination r : RationalTime}
    (htarget : findMulticamTarget timelines timelineId clipId = .ok target)
    (honce : target.clip.timeMap.PlaysOnce)
    (h : Sweeps timelines timelineId clipId origin destination r) : Between origin destination r := by
  obtain ⟨other, c, d, x, hother, hc, hd, hx, hswept⟩ := h
  obtain rfl : target = other := Except.ok.inj (htarget.symm.trans hother)
  rcases Clip.path_directed honce with hforward | hbackward
  · rcases hswept with ⟨hcx, hxd⟩ | ⟨hdx, hxc⟩
    · exact .inl ⟨(hforward _ _ _ _ hc hx).2 hcx, (hforward _ _ _ _ hx hd).2 hxd.le⟩
    · exact .inr ⟨(hforward _ _ _ _ hd hx).2 hdx, (hforward _ _ _ _ hx hc).2 hxc.le⟩
  · rcases hswept with ⟨hcx, hxd⟩ | ⟨hdx, hxc⟩
    · exact .inr ⟨(hbackward _ _ _ _ hd hx).2 hxd.le, (hbackward _ _ _ _ hx hc).2 hcx⟩
    · exact .inl ⟨(hbackward _ _ _ _ hc hx).2 hxc.le, (hbackward _ _ _ _ hx hd).2 hdx⟩

end Directions

/-- The two record-time mutations of a valid project.  A switch is the cut that was meant exactly
when the angle was showing already, or the rest of its switch interval plays in one stretch from the
given instant on, with another angle visible behind it.  A moved cut changes instants between its
two places only, exactly when it sweeps over no others, as on every clip that shows nothing twice.
In both projects every resolved frame has the angle that its instant shows. -/
theorem multicam_switching_exact_iff {project published : EditorialProject} {revision : Nat}
    {mutation : MulticamMutation} {result : MulticamMutationBatchResult}
    (hvalid : project.validate = .ok ()) (hauthored : ProgramsAuthored project.timelines)
    (hbatch : applyMulticamMutationBatch project revision [mutation] = .ok (published, result)) :
    (∀ timelineId clipId t angle, mutation = .switchAt timelineId clipId t angle →
      (CutAt (shownAngle project.timelines timelineId clipId)
          (shownAngle published.timelines timelineId clipId) t angle ↔
        shownAngle project.timelines timelineId clipId t = some angle ∨
          OneStretch (shownAngle project.timelines timelineId clipId)
            (ShowsRest project.timelines timelineId clipId t) t)) ∧
    (∀ timelineId clipId origin destination,
      mutation = .moveCut timelineId clipId origin destination →
        ((∀ r, shownAngle published.timelines timelineId clipId r ≠
            shownAngle project.timelines timelineId clipId r → Between origin destination r) ↔
          ∀ r, Sweeps project.timelines timelineId clipId origin destination r →
            Between origin destination r) ∧
        ∀ target, findMulticamTarget project.timelines timelineId clipId = .ok target →
          target.clip.timeMap.PlaysOnce →
            ∀ r, shownAngle published.timelines timelineId clipId r ≠
              shownAngle project.timelines timelineId clipId r → Between origin destination r) ∧
    ∀ timelineId clipId r, ∀ shown ∈ [project, published],
      (resolveMulticamFrame shown timelineId clipId r).run ≠ none ∧
        ∀ frame, (resolveMulticamFrame shown timelineId clipId r).run = some (.ok frame) →
          shownAngle shown.timelines timelineId clipId r = some frame.angleId := by
  obtain ⟨after, hafter, rfl, hpublished⟩ := applyMulticamMutationBatch_single hbatch
  have hshown : ∀ timelineId clipId, shownAngle (project.candidate after).timelines timelineId clipId =
      shownAngle after.timelines timelineId clipId := fun timelineId clipId =>
    shownAngle_congr fun target => findMulticamTarget_candidate
  refine ⟨?_, ?_, ?_⟩
  · rintro timelineId clipId t angle rfl
    rw [hshown]
    exact switchAt_cut_iff (fun timeline clip htimeline hclip =>
      (hauthored timelineId timeline htimeline clipId clip hclip).2) hafter
  · rintro timelineId clipId origin destination rfl
    rw [hshown]
    have hchanges := fun r => moveCut_changes_iff (r := r) (fun timeline clip htimeline hclip =>
      (hauthored timelineId timeline htimeline clipId clip hclip).2) hafter
    refine ⟨forall_congr' fun r => imp_congr_left (hchanges r), fun target htarget honce r hr => ?_⟩
    exact ((hchanges r).1 hr).between htarget honce
  · intro timelineId clipId r shown hmem
    have hmade : ProgramsAuthored (project.candidate after).timelines :=
      ProgramsAuthored.candidate (ProgramsAuthored.apply hauthored hafter)
    rcases List.mem_pair.1 hmem with rfl | rfl
    · exact resolveMulticamFrame_shows hvalid hauthored timelineId clipId r
    · exact resolveMulticamFrame_shows hpublished hmade timelineId clipId r

/-! ### A clip in reverse -/

/-- Ten frames that play forward from the first one. -/
def forwardMap : ClipTimeMap where
  recordDuration := ⟨10, filmClock, by decide⟩
  sourceTimebase := filmClock
  segments := [⟨filmRange 0 10 ten_fit, ⟨0, filmClock, inI64_zero⟩, .normal, by decide, by decide,
    by decide⟩]
  durationNonzero := by decide
  nonempty := by decide
  checked := by decide

/-- Ten frames that play backward from the last one. -/
def reverseMap : ClipTimeMap where
  recordDuration := ⟨10, filmClock, by decide⟩
  sourceTimebase := filmClock
  segments := [⟨filmRange 0 10 ten_fit, ⟨9, filmClock, by decide⟩, .reverse, by decide, by decide,
    by decide⟩]
  durationNonzero := by decide
  nonempty := by decide
  checked := by decide

def nestedRanges : ClipRangeMap where
  sourceRange := filmRange 0 10 ten_fit
  recordRange := filmRange 0 10 ten_fit
  sourceNonempty := by decide
  recordNonempty := by decide
  synchronized := by decide

/-- A clip that shows the ten frames of a nested timeline. -/
def cameraClip (id : ClipId) (name : String) : Clip where
  id
  name
  source := .timeline ⟨1⟩
  ranges := nestedRanges
  timeMap := forwardMap
  bound := by decide

def stageClip : Clip where
  id := ⟨3⟩
  name := "Stage"
  source := .timeline ⟨2⟩
  ranges := nestedRanges
  timeMap := reverseMap
  bound := by decide

def videoTrack (id : TrackId) (clip : Clip) : Track where
  id
  name := clip.name
  semantics := .video filmClock .over
  items := [.timed (.clip clip)]

def stageAngle (id : MulticamAngleId) (name : String) (clip : ClipId) : MulticamAngle where
  id
  name
  cameraLabel := name
  enabled := true
  metadata := []
  sourceClips := [clip]

/-- Two cameras, one angle each. -/
def camerasTimeline : Timeline :=
  (Timeline.new ⟨2⟩ "Cameras" filmClock (.zero filmClock)
    [videoTrack ⟨2⟩ (cameraClip ⟨1⟩ "Wide"),
      videoTrack ⟨3⟩ (cameraClip ⟨2⟩ "Close")]).putMulticamSource
    ⟨.manual, [stageAngle ⟨1⟩ "Wide" ⟨1⟩, stageAngle ⟨2⟩ "Close" ⟨2⟩]⟩

def stageProgram : MulticamClip where
  clipId := ⟨3⟩
  switches := [⟨filmRange 0 10 ten_fit, ⟨1⟩⟩]
  audioPolicy := .followVideo

/-- The cameras played backward, on the first angle. -/
def stageTimeline : Timeline :=
  (Timeline.new ⟨3⟩ "Stage" filmClock (.zero filmClock) [videoTrack ⟨4⟩ stageClip]).putMulticamClip
    ⟨3⟩ stageProgram

def stageProject : EditorialProject where
  id := ⟨1⟩
  name := "Stage"
  revision := 0
  mediaReferences := ∅
  mediaLibrary := ⟨∅, ∅⟩
  timelines := (((∅ : Std.ExtTreeMap TimelineId Timeline).insert ⟨1⟩ slateTimeline).insert ⟨2⟩
    camerasTimeline).insert ⟨3⟩ stageTimeline

/-- The record instant of a frame. -/
def filmFrame (frame : Nat) (h : InI64 frame) : RationalTime := ⟨frame, filmClock, h⟩

/-- From the fifth frame on the second angle. -/
def stageSwitch : MulticamMutation :=
  .switchAt ⟨3⟩ ⟨3⟩ (filmFrame 4 (by decide)) ⟨2⟩

theorem stageProject_authored : ProgramsAuthored stageProject.timelines := by
  intro timelineId timeline htimeline clipId clip hclip
  simp only [stageProject, getElem?_insert_eq] at htimeline
  split_ifs at htimeline with hstage hcameras hslate
  · cases htimeline
    simp only [stageTimeline, Timeline.putMulticamClip, Timeline.multicamClip,
      getElem?_insert_eq] at hclip
    split_ifs at hclip with hid
    · cases hclip
      have hmade : MulticamClip.new ⟨3⟩ (filmRange 0 10 (by decide)) ⟨1⟩ .followVideo =
          .ok stageProgram := by
        decide
      exact ⟨hid.symm, .new hmade⟩
    · simp [Timeline.new] at hclip
  · cases htimeline
    simp [camerasTimeline, Timeline.putMulticamSource, Timeline.new, Timeline.multicamClip] at hclip
  · cases htimeline
    simp [slateTimeline, Timeline.new, Timeline.multicamClip] at hclip
  · simp at htimeline

/-- A switch at the fifth frame of a clip in reverse changes the frame before it. -/
theorem reverse_switch_misses : ∃ published result,
    stageProject.validate = .ok () ∧ ProgramsAuthored stageProject.timelines ∧
      (∀ target, findMulticamTarget stageProject.timelines ⟨3⟩ ⟨3⟩ = .ok target →
        target.clip.timeMap.PlaysOnce) ∧
      applyMulticamMutationBatch stageProject 0 [stageSwitch] = .ok (published, result) ∧
      ¬ CutAt (shownAngle stageProject.timelines ⟨3⟩ ⟨3⟩) (shownAngle published.timelines ⟨3⟩ ⟨3⟩)
        (filmFrame 4 (by decide)) ⟨2⟩ := by
  have hafter : (applyMulticamMutationBatch stageProject 0 [stageSwitch]).toOption.map (fun outcome =>
      shownAngle outcome.1.timelines ⟨3⟩ ⟨3⟩ (filmFrame 3 (by decide))) = some (some ⟨2⟩) := by
    decide +kernel
  have hbefore : shownAngle stageProject.timelines ⟨3⟩ ⟨3⟩ (filmFrame 3 (by decide)) = some ⟨1⟩ := by
    decide +kernel
  cases hbatch : applyMulticamMutationBatch stageProject 0 [stageSwitch] with
  | error error => simp [hbatch, Except.toOption] at hafter
  | ok outcome =>
      obtain ⟨published, result⟩ := outcome
      rw [hbatch] at hafter
      replace hafter : shownAngle published.timelines ⟨3⟩ ⟨3⟩ (filmFrame 3 (by decide)) = some ⟨2⟩ :=
        Option.some.inj hafter
      refine ⟨published, result, by decide +kernel, stageProject_authored, fun target htarget => ?_,
        rfl, fun hcut => ?_⟩
      · obtain ⟨timeline, htimeline, hclip, -⟩ := findMulticamTarget_eq_ok.1 htarget
        have hstage : timeline = stageTimeline := by
          simpa [stageProject] using htimeline.symm
        subst hstage
        have hstageClip : stageTimeline.findClip ⟨3⟩ = some stageClip := by decide +kernel
        rw [← Option.some.inj (hstageClip.symm.trans hclip)]
        refine ClipTimeMap.playsOnce_of_single rfl ?_
        norm_num [RetimeSegment.slope, PlaybackRate.ratio, PlaybackRate.reverse]
      · have hkept := hcut.kept (filmFrame 3 (by decide)) fun _ hnext =>
          absurd hnext.1 (by decide)
        rw [hafter, hbefore] at hkept
        exact absurd hkept (by decide)

theorem multicam_switching_exact_iff_stage : ∃ published result,
    applyMulticamMutationBatch stageProject 0 [stageSwitch] = .ok (published, result) ∧
      (CutAt (shownAngle stageProject.timelines ⟨3⟩ ⟨3⟩) (shownAngle published.timelines ⟨3⟩ ⟨3⟩)
          (filmFrame 4 (by decide)) ⟨2⟩ ↔
        shownAngle stageProject.timelines ⟨3⟩ ⟨3⟩ (filmFrame 4 (by decide)) = some ⟨2⟩ ∨
          OneStretch (shownAngle stageProject.timelines ⟨3⟩ ⟨3⟩)
            (ShowsRest stageProject.timelines ⟨3⟩ ⟨3⟩ (filmFrame 4 (by decide)))
            (filmFrame 4 (by decide))) := by
  obtain ⟨⟨published, result⟩, hbatch⟩ := exists_ok_of_isSome
    (x := applyMulticamMutationBatch stageProject 0 [stageSwitch]) (by decide +kernel)
  exact ⟨published, result, hbatch, (multicam_switching_exact_iff (by decide +kernel)
    stageProject_authored hbatch).1 _ _ _ _ rfl⟩

end Editorial
end Superi

import Superi.Timeline.MulticamOps
import Superi.Timeline.RetimeDirection

/-!
# MulticamRecord — what switches and moved cuts do in record time

The path of a multicam clip leads from record instants to source coordinates; the angle an instant
shows is the angle of its coordinate.  A mutation paints a source interval, so it is the cut that
was meant in record time exactly when the path plays that interval in one stretch from the given
instant on, and another angle is visible behind it.
-/

namespace Superi
namespace Editorial

open Core Result Tiling Piecewise Playback Stateful
open MulticamSwitch (opens closes)

/-! ## Programs as their operations make them -/

/-- The programs that the operations of a multicam clip make; there is no other way to make one. -/
inductive MulticamClip.Authored : MulticamClip → Prop
  | new {clipId : ClipId} {sourceRange : TimeRange} {angle : MulticamAngleId}
      {policy : MulticamAudioPolicy} {clip : MulticamClip}
      (h : MulticamClip.new clipId sourceRange angle policy = .ok clip) : Authored clip
  | call {clip next : MulticamClip} (call : SwitchCall) (hclip : Authored clip)
      (h : call.perform clip = .ok next) : Authored next
  | policy {clip : MulticamClip} (policy : MulticamAudioPolicy) (hclip : Authored clip) :
      Authored (clip.setAudioPolicy policy)
  | cloned {clip : MulticamClip} (clipId : ClipId) (hclip : Authored clip) :
      Authored (clip.cloneWithClipId clipId)

variable {coverage : TimeRange} {clip next : MulticamClip} {f : ℚ → Option MulticamAngleId}

theorem SwitchCall.perform_eq_ok {call : SwitchCall} :
    call.perform clip = .ok next ↔ ∃ value, call.apply clip = some (.ok value next) := by
  unfold perform
  cases hcall : call.apply clip with
  | none => simp
  | some result => cases result <;> simp

/-- What a call that succeeds does to a program. -/
theorem Covering.perform (h : Covering coverage clip f) {call : SwitchCall}
    (hcall : call.perform clip = .ok next) :
    (∃ g, Covering coverage next g) ∧ call.Pointwise clip next := by
  obtain ⟨value, hvalue⟩ := SwitchCall.perform_eq_ok.1 hcall
  rcases h.apply call with ⟨last, hlast, hcovering, hpointwise⟩ | ⟨error, herror⟩
  · rw [hvalue] at hlast
    cases hlast
    exact ⟨hcovering, hpointwise⟩
  · rw [hvalue] at herror
    cases herror

/-- Only the switches of a clip say what it covers. -/
theorem Covering.of_switches {other : MulticamClip} (h : Covering coverage clip f)
    (hswitches : other.switches = clip.switches) : Covering coverage other f :=
  ⟨hswitches ▸ h.drawn, h.nonempty⟩

theorem MulticamClip.Authored.covering (h : clip.Authored) : ∃ coverage f, Covering coverage clip f := by
  induction h with
  | new h => exact ⟨_, Covering.of_new h⟩
  | call call _ h ih =>
      obtain ⟨coverage, f, hcovering⟩ := ih
      exact ⟨coverage, (hcovering.perform h).1⟩
  | policy policy _ ih =>
      obtain ⟨coverage, f, hcovering⟩ := ih
      exact ⟨coverage, f, hcovering.of_switches rfl⟩
  | cloned clipId _ ih =>
      obtain ⟨coverage, f, hcovering⟩ := ih
      exact ⟨coverage, f, hcovering.of_switches rfl⟩

theorem frames_switchWithin (coverage range : TimeRange) (angle : MulticamAngleId) :
    Frames MulticamClip.clipId (MulticamClip.switchWithin coverage range angle) := by
  apply Frames.check.bind
  intro _
  apply Frames.get.bind
  intro clip
  apply Frames.ofExcept.bind
  intro switches
  refine .bind (.change fun _ => rfl) fun _ => ?_
  apply Frames.get.bind
  intro clip
  exact .ofExcept

theorem frames_moveCut (cut target : RationalTime) :
    Frames MulticamClip.clipId (MulticamClip.moveCut cut target) := by
  apply Frames.check.bind
  intro _
  apply Frames.get.bind
  intro clip
  apply Frames.ofExcept.bind
  rintro ⟨index, left, right⟩
  apply Frames.check.bind
  intro _
  apply Frames.ofExcept.bind
  intro leftRange
  refine .bind (.change fun _ => rfl) fun _ => ?_
  apply Frames.ofExcept.bind
  intro rightRange
  refine .bind (.change fun _ => rfl) fun _ => ?_
  apply Frames.get.bind
  intro clip
  exact .ofExcept

theorem SwitchCall.perform_clipId {call : SwitchCall} (h : call.perform clip = .ok next) :
    next.clipId = clip.clipId := by
  obtain ⟨value, hvalue⟩ := perform_eq_ok.1 h
  cases call with
  | switchRange range angle =>
      obtain ⟨coverage, -, hrun⟩ := Option.map_eq_some_iff.1 hvalue
      have hframe := frames_switchWithin coverage range angle clip
      rw [Ensures, hrun] at hframe
      exact hframe
  | moveCut cut target =>
      have hframe := frames_moveCut cut target clip
      rw [Ensures, Option.some.inj hvalue] at hframe
      exact hframe

/-- A switch that contains a coordinate gives the coordinate its angle. -/
theorem Covering.angleAt_of_mem (h : Covering coverage clip f) {switch : MulticamSwitch}
    (hswitch : switch ∈ clip.switches) {time : RationalTime}
    (htime : switch.sourceRange.contains time = true) : clip.angleAt time = .ok switch.angleId := by
  obtain ⟨found, hfound⟩ : ∃ found, (clip.switches.find? fun switch =>
      switch.sourceRange.contains time) = some found :=
    Option.isSome_iff_exists.1 (List.find?_isSome.2 ⟨switch, hswitch, htime⟩)
  have hcovers : found.sourceRange.contains time = true := by simpa using List.find?_some hfound
  have heq : found = switch := h.drawn.draws.tiles.covers_unique (List.mem_of_find?_eq_some hfound)
    hswitch (TimeRange.contains_iff_seconds.1 hcovers) (TimeRange.contains_iff_seconds.1 htime)
  unfold MulticamClip.angleAt
  rw [hfound, heq]
  rfl

/-- The two sides of a cut that can be moved have different angles. -/
theorem Covering.moveCut_distinct (h : Covering coverage clip f) {cut target : RationalTime}
    (hcall : (SwitchCall.moveCut cut target).perform clip = .ok next) {first last : RationalTime}
    {left right : MulticamAngleId} (hfirst : first < cut) (hlast : cut < last)
    (hleft : ∀ t, first ≤ t → t < cut → clip.angleAt t = .ok left)
    (hright : ∀ t, cut ≤ t → t < last → clip.angleAt t = .ok right) : left ≠ right := by
  obtain ⟨value, hvalue⟩ := SwitchCall.perform_eq_ok.1 hcall
  -- the cut was found among the switches
  obtain ⟨index, l, r, hfound⟩ : ∃ index l r,
      MulticamClip.findCut cut clip.switches = some (index, l, r) := by
    have hrun : MulticamClip.moveCut cut target clip = .ok value next := Option.some.inj hvalue
    cases hfind : MulticamClip.findCut cut clip.switches with
    | some found => exact ⟨found.1, found.2.1, found.2.2, rfl⟩
    | none =>
        have hensures : Ensures (MulticamClip.moveCut cut target) clip (fun _ _ => False)
            fun _ => True := by
          refine .check trivial fun _ => .get (.through (fun _ _ => False) (.ofExcept trivial
            fun found hok => ?_) fun _ _ hfalse => hfalse.elim)
          rw [hfind] at hok
          cases hok
        rw [Ensures, hrun] at hensures
        exact hensures.elim
  obtain ⟨front, back, hsplit, -, hlcloses, hropens⟩ := findCut_eq_some hfound
  have hchain : (front ++ l :: r :: back).IsChain fun i j => i.angleId ≠ j.angleId :=
    hsplit ▸ h.drawn.draws.compact
  have hdistinct : l.angleId ≠ r.angleId :=
    (List.isChain_cons_cons.1 (List.isChain_append.1 hchain).2.1).1
  have hl : l ∈ clip.switches := by rw [hsplit]; simp
  have hr : r ∈ clip.switches := by rw [hsplit]; simp
  have hlpos := h.drawn.draws.positive l hl
  have hrpos := h.drawn.draws.positive r hr
  rw [RationalTime.lt_iff_seconds] at hfirst hlast
  -- the later of the two starts before the cut lies on its left side
  have hleftAngle : left = l.angleId := by
    rcases le_total first.seconds l.sourceRange.start.seconds with hle | hle
    · have hcontains : l.sourceRange.contains l.sourceRange.start = true :=
        TimeRange.contains_iff_seconds.2 ⟨le_rfl, hlpos⟩
      have hat := hleft l.sourceRange.start (RationalTime.le_iff_seconds.2 hle)
        (RationalTime.lt_iff_seconds.2 (hlpos.trans_eq hlcloses))
      rw [h.angleAt_of_mem hl hcontains] at hat
      exact (Except.ok.inj hat).symm
    · have hcontains : l.sourceRange.contains first = true :=
        TimeRange.contains_iff_seconds.2 ⟨hle, hfirst.trans_eq hlcloses.symm⟩
      have hat := hleft first (RationalTime.le_iff_seconds.2 le_rfl)
        (RationalTime.lt_iff_seconds.2 hfirst)
      rw [h.angleAt_of_mem hl hcontains] at hat
      exact (Except.ok.inj hat).symm
  have hrightAngle : right = r.angleId := by
    have hcontains : r.sourceRange.contains cut = true :=
      TimeRange.contains_iff_seconds.2 ⟨hropens.le, hropens.symm.trans_lt hrpos⟩
    have hat := hright cut (RationalTime.le_iff_seconds.2 le_rfl)
      (RationalTime.lt_iff_seconds.2 hlast)
    rw [h.angleAt_of_mem hr hcontains] at hat
    exact (Except.ok.inj hat).symm
  rw [hleftAngle, hrightAngle]
  exact hdistinct

/-! ## What a record instant shows -/

section Shown

variable (timelines : Std.ExtTreeMap TimelineId Timeline) (timelineId : TimelineId) (clipId : ClipId)

/-- The angle a record instant selects; an instant without one shows nothing. -/
def shownAngle (recordTime : RationalTime) : Option MulticamAngleId :=
  (selectAngle timelines timelineId clipId recordTime).toOption.map fun selected => selected.2.2

/-- The instant `r` shows the switch interval that `t` shows, from the coordinate of `t` on. -/
def ShowsRest (t r : RationalTime) : Prop :=
  ∃ target switch s x, findMulticamTarget timelines timelineId clipId = .ok target ∧
    target.clip.path t = some s ∧
    (target.state.switches.find? fun switch => switch.sourceRange.contains s) = some switch ∧
    target.clip.path r = some x ∧ s ≤ x ∧ x < switch.sourceRange.endExclusive

/-- The coordinate of `r` lies between the coordinates of two instants, in either direction. -/
def Sweeps (origin destination r : RationalTime) : Prop :=
  ∃ target c d x, findMulticamTarget timelines timelineId clipId = .ok target ∧
    target.clip.path origin = some c ∧ target.clip.path destination = some d ∧
    target.clip.path r = some x ∧ (c ≤ x ∧ x < d ∨ d ≤ x ∧ x < c)

end Shown

variable {timelines : Std.ExtTreeMap TimelineId Timeline} {timelineId : TimelineId}
  {clipId : ClipId} {target : MulticamTarget}

theorem shownAngle_of_target (h : findMulticamTarget timelines timelineId clipId = .ok target)
    (recordTime : RationalTime) : shownAngle timelines timelineId clipId recordTime =
      (target.clip.path recordTime).bind fun x => (target.state.angleAt x).toOption := by
  unfold shownAngle selectAngle MulticamTarget.select Clip.path
  rw [h]
  simp only [bind, Except.bind, pure, Except.pure]
  cases target.clip.sourceTimeAt recordTime .exact with
  | error error => rfl
  | ok mapped =>
      simp only [Except.toOption, Option.map_some, Option.bind_some]
      cases target.state.angleAt mapped.time <;> rfl

theorem shownAngle_of_error {error : Error}
    (h : findMulticamTarget timelines timelineId clipId = .error error) (recordTime : RationalTime) :
    shownAngle timelines timelineId clipId recordTime = none := by
  unfold shownAngle selectAngle
  rw [h]
  rfl

theorem angleAt_eq_ok {time : RationalTime} {angle : MulticamAngleId} :
    clip.angleAt time = .ok angle ↔ ∃ switch,
      (clip.switches.find? fun switch => switch.sourceRange.contains time) = some switch ∧
        switch.angleId = angle := by
  simp only [MulticamClip.angleAt, bind_eq_ok, okOr_eq_ok, pure_eq_ok]

/-- The instants that show the rest of a switch interval, read off the path. -/
theorem showsRest_iff {t r s : RationalTime} {switch : MulticamSwitch}
    (htarget : findMulticamTarget timelines timelineId clipId = .ok target)
    (hs : target.clip.path t = some s)
    (hswitch : (target.state.switches.find? fun switch => switch.sourceRange.contains s) =
      some switch) :
    ShowsRest timelines timelineId clipId t r ↔
      ∃ x, target.clip.path r = some x ∧ s ≤ x ∧ x < switch.sourceRange.endExclusive := by
  constructor
  · rintro ⟨target', switch', s', x, htarget', hs', hswitch', hx, hsx, hxe⟩
    obtain rfl : target = target' := Except.ok.inj (htarget.symm.trans htarget')
    obtain rfl : s = s' := Option.some.inj (hs.symm.trans hs')
    obtain rfl : switch = switch' := Option.some.inj (hswitch.symm.trans hswitch')
    exact ⟨x, hx, hsx, hxe⟩
  · rintro ⟨x, hx, hsx, hxe⟩
    exact ⟨target, switch, s, x, htarget, hs, hswitch, hx, hsx, hxe⟩

/-! ## Changing one program of a draft -/

variable {before after : ProjectDraft}

theorem findMulticamTarget_eq_ok : findMulticamTarget timelines timelineId clipId = .ok target ↔
    ∃ timeline, timelines[timelineId]? = some timeline ∧
      timeline.findClip clipId = some target.clip ∧
      timeline.multicamClip clipId = some target.state ∧
      target.clip.source = .timeline target.sourceTimelineId := by
  unfold findMulticamTarget
  simp only [bind_eq_ok, okOr_eq_ok]
  constructor
  · rintro ⟨timeline, htimeline, clip, hclip, state, hstate, hsource⟩
    cases hcase : clip.source with
    | media id => simp [hcase] at hsource
    | timeline id =>
        simp only [hcase, pure_eq_ok] at hsource
        subst hsource
        exact ⟨timeline, htimeline, hclip, hstate, hcase⟩
  · rintro ⟨timeline, htimeline, hclip, hstate, hsource⟩
    refine ⟨timeline, htimeline, target.clip, hclip, target.state, hstate, ?_⟩
    rw [hsource]
    rfl

/-- A change of one program changes the state of one target, and nothing else a target has. -/
theorem editMulticamClip_eq_ok {change : MulticamClip → Except Error MulticamClip} :
    editMulticamClip before timelineId clipId change = .ok after ↔
      ∃ timeline clip next, before.timelines[timelineId]? = some timeline ∧
        timeline.multicamClip clipId = some clip ∧ change clip = .ok next ∧
        before.setTimeline timelineId (timeline.putMulticamClip clipId next) = after := by
  unfold editMulticamClip ProjectDraft.timelineMut Timeline.multicamClipMut
  simp only [bind_eq_ok, okOr_eq_ok, pure_eq_ok]
  constructor
  · rintro ⟨timeline, htimeline, clip, hclip, next, hnext, hafter⟩
    exact ⟨timeline, clip, next, htimeline, hclip, hnext, hafter⟩
  · rintro ⟨timeline, clip, next, htimeline, hclip, hnext, hafter⟩
    exact ⟨timeline, htimeline, clip, hclip, next, hnext, hafter⟩

theorem findMulticamTarget_set {timeline : Timeline} (next : MulticamClip)
    (htimeline : before.timelines[timelineId]? = some timeline)
    (h : findMulticamTarget before.timelines timelineId clipId = .ok target) :
    findMulticamTarget (before.setTimeline timelineId
      (timeline.putMulticamClip clipId next)).timelines timelineId clipId =
        .ok { target with state := next } := by
  obtain ⟨other, hother, hclip, -, hsource⟩ := findMulticamTarget_eq_ok.1 h
  obtain rfl : timeline = other := Option.some.inj (htimeline.symm.trans hother)
  refine findMulticamTarget_eq_ok.2 ⟨timeline.putMulticamClip clipId next, ?_, hclip, ?_, hsource⟩
  · simp [ProjectDraft.setTimeline]
  · simp [Timeline.putMulticamClip, Timeline.multicamClip]

/-- Without a target before the change there is none after it. -/
theorem findMulticamTarget_set_error {timeline : Timeline} {clip : MulticamClip} {error : Error}
    (next : MulticamClip) (htimeline : before.timelines[timelineId]? = some timeline)
    (hclip : timeline.multicamClip clipId = some clip)
    (h : findMulticamTarget before.timelines timelineId clipId = .error error) :
    ∃ error', findMulticamTarget (before.setTimeline timelineId
      (timeline.putMulticamClip clipId next)).timelines timelineId clipId = .error error' := by
  cases hafter : findMulticamTarget (before.setTimeline timelineId
      (timeline.putMulticamClip clipId next)).timelines timelineId clipId with
  | error error' => exact ⟨error', rfl⟩
  | ok found =>
      obtain ⟨other, hother, hfound, -, hsource⟩ := findMulticamTarget_eq_ok.1 hafter
      have heq : timeline.putMulticamClip clipId next = other := by
        simpa [ProjectDraft.setTimeline] using hother
      subst heq
      have hback : findMulticamTarget before.timelines timelineId clipId =
          .ok { found with state := clip } :=
        findMulticamTarget_eq_ok.2 ⟨timeline, htimeline, hfound, hclip, hsource⟩
      rw [h] at hback
      cases hback

theorem targetClip_eq_ok {clip : Clip} : targetClip before timelineId clipId = .ok clip ↔
    ∃ timeline, before.timelines[timelineId]? = some timeline ∧
      timeline.findClip clipId = some clip := by
  unfold targetClip
  simp only [bind_eq_ok, okOr_eq_ok]

theorem switchedRange_spec {multicam : MulticamClip} {sourceTime : RationalTime} {range : TimeRange}
    (h : switchedRange multicam sourceTime = .ok range) : ∃ switch,
      (multicam.switches.find? fun switch => switch.sourceRange.contains sourceTime) = some switch ∧
        range.start = sourceTime ∧ range.endExclusive = switch.sourceRange.endExclusive := by
  unfold switchedRange at h
  simp only [bind_eq_ok, okOr_eq_ok, rejectIf_eq_ok] at h
  obtain ⟨coverage, -, ⟨⟩, -, switch, hswitch, hrange⟩ := h
  exact ⟨switch, hswitch, TimeRange.fromStartEnd_spec hrange⟩

theorem switchAt_eq_ok {t : RationalTime} {angle : MulticamAngleId}
    (h : applyMulticamMutation before (.switchAt timelineId clipId t angle) = .ok after) :
    ∃ timeline clip s state range next, before.timelines[timelineId]? = some timeline ∧
      timeline.findClip clipId = some clip ∧ clip.path t = some s ∧
      timeline.multicamClip clipId = some state ∧ switchedRange state s = .ok range ∧
      (SwitchCall.switchRange range angle).perform state = .ok next ∧
      before.setTimeline timelineId (timeline.putMulticamClip clipId next) = after := by
  simp only [applyMulticamMutation, bind_eq_ok, okOr_eq_ok, targetClip_eq_ok, editMulticamClip_eq_ok] at h
  obtain ⟨clip, ⟨timeline, htimeline, hclip⟩, mapped, hmapped, multicam, hmulticam, range, hrange,
    timeline', state, next, htimeline', hstate, hnext, hafter⟩ := h
  obtain rfl : timeline = timeline' := Option.some.inj (htimeline.symm.trans htimeline')
  rw [htimeline, Option.bind_some, hstate] at hmulticam
  obtain rfl : state = multicam := Option.some.inj hmulticam
  exact ⟨timeline, clip, mapped.time, state, range, next, htimeline, hclip,
    Clip.path_eq_some.2 ⟨mapped, hmapped, rfl⟩, hstate, hrange, hnext, hafter⟩

theorem moveCut_eq_ok {origin destination : RationalTime}
    (h : applyMulticamMutation before (.moveCut timelineId clipId origin destination) = .ok after) :
    ∃ timeline clip c d state next, before.timelines[timelineId]? = some timeline ∧
      timeline.findClip clipId = some clip ∧ clip.path origin = some c ∧
      clip.path destination = some d ∧ timeline.multicamClip clipId = some state ∧
      (SwitchCall.moveCut c d).perform state = .ok next ∧
      before.setTimeline timelineId (timeline.putMulticamClip clipId next) = after := by
  simp only [applyMulticamMutation, bind_eq_ok, targetClip_eq_ok, editMulticamClip_eq_ok] at h
  obtain ⟨clip, ⟨timeline, htimeline, hclip⟩, cut, hcut, moved, hmoved, timeline', state, next,
    htimeline', hstate, hnext, hafter⟩ := h
  obtain rfl : timeline = timeline' := Option.some.inj (htimeline.symm.trans htimeline')
  exact ⟨timeline, clip, cut.time, moved.time, state, next, htimeline, hclip,
    Clip.path_eq_some.2 ⟨cut, hcut, rfl⟩, Clip.path_eq_some.2 ⟨moved, hmoved, rfl⟩, hstate, hnext,
    hafter⟩

/-! ## The two mutations in record time -/

/-- A successful switch is the cut that was meant exactly when the angle was showing already, or the
rest of the switch interval plays in one stretch from the instant on, with another angle behind it.
-/
theorem switchAt_cut_iff {t : RationalTime} {angle : MulticamAngleId}
    (hauthored : ∀ timeline clip, before.timelines[timelineId]? = some timeline →
      timeline.multicamClip clipId = some clip → clip.Authored)
    (h : applyMulticamMutation before (.switchAt timelineId clipId t angle) = .ok after) :
    CutAt (shownAngle before.timelines timelineId clipId)
        (shownAngle after.timelines timelineId clipId) t angle ↔
      shownAngle before.timelines timelineId clipId t = some angle ∨
        OneStretch (shownAngle before.timelines timelineId clipId)
          (ShowsRest before.timelines timelineId clipId t) t := by
  obtain ⟨timeline, clip, s, state, range, next, htimeline, hclip, hs, hstate, hrange, hnext, rfl⟩ :=
    switchAt_eq_ok h
  cases htarget : findMulticamTarget before.timelines timelineId clipId with
  | error error =>
      -- a clip that nests no timeline shows nothing, before and after
      obtain ⟨error', hafter⟩ := findMulticamTarget_set_error next htimeline hstate htarget
      have hbefore : shownAngle before.timelines timelineId clipId = fun _ => none :=
        funext fun r => shownAngle_of_error htarget r
      rw [hbefore, funext fun r => shownAngle_of_error hafter r]
      refine ⟨fun _ => .inr ⟨fun r hr => ?_, fun _ _ _ _ _ hu => (nomatch hu),
        fun _ _ hr => (nomatch hr)⟩, fun _ => ⟨fun _ hr => (nomatch hr), fun _ _ => rfl⟩⟩
      obtain ⟨target, _, _, _, hfound, -⟩ := hr
      rw [htarget] at hfound
      cases hfound
  | ok target =>
      obtain ⟨timeline', htimeline', hclip', hstate', -⟩ := findMulticamTarget_eq_ok.1 htarget
      obtain rfl : timeline = timeline' := Option.some.inj (htimeline.symm.trans htimeline')
      obtain rfl : clip = target.clip := Option.some.inj (hclip.symm.trans hclip')
      obtain rfl : state = target.state := Option.some.inj (hstate.symm.trans hstate')
      obtain ⟨coverage, f, hcovering⟩ := (hauthored timeline _ htimeline hstate).covering
      obtain ⟨switch, hswitch, hstart, hend⟩ := switchedRange_spec hrange
      have hmem := List.mem_of_find?_eq_some hswitch
      have hcontains : switch.sourceRange.contains s = true := by simpa using List.find?_some hswitch
      obtain ⟨-, hpointwise⟩ := hcovering.perform hnext
      have hbefore := shownAngle_of_target htarget
      have hafter := shownAngle_of_target (findMulticamTarget_set next htimeline htarget)
      have hrest := fun r => showsRest_iff (r := r) htarget hs hswitch
      have ht : shownAngle before.timelines timelineId clipId t = some switch.angleId := by
        rw [hbefore, hs, Option.bind_some, hcovering.angleAt_of_mem hmem hcontains]
        rfl
      rw [ht, Option.some_inj]
      refine cutAt_iff (fun r hr => ?_) ht fun r => ⟨fun hr => ?_, fun hr => ?_⟩
      · obtain ⟨x, hx, hsx, hxe⟩ := (hrest r).1 hr
        have hxin : switch.sourceRange.contains x = true := by
          rw [TimeRange.contains_iff_seconds] at hcontains ⊢
          exact ⟨hcontains.1.trans (RationalTime.le_iff_seconds.1 hsx),
            RationalTime.lt_iff_seconds.1 hxe⟩
        rw [hbefore, hx, Option.bind_some, hcovering.angleAt_of_mem hmem hxin]
        rfl
      · obtain ⟨x, hx, hsx, hxe⟩ := (hrest r).1 hr
        rw [hafter, hx, Option.bind_some, hpointwise x, if_pos ⟨hstart ▸ hsx, hend ▸ hxe⟩]
        rfl
      · rw [hafter, hbefore]
        cases hx : target.clip.path r with
        | none => rfl
        | some x =>
            have hout : ¬ (range.start ≤ x ∧ x < range.endExclusive) := by
              rw [hstart, hend]
              exact fun hin => hr ((hrest r).2 ⟨x, hx, hin⟩)
            rw [Option.bind_some, hpointwise x, if_neg hout]
            rfl

/-- A successful move of a cut changes the angle of an instant exactly when the cut is swept over
the coordinate the instant shows. -/
theorem moveCut_changes_iff {origin destination r : RationalTime}
    (hauthored : ∀ timeline clip, before.timelines[timelineId]? = some timeline →
      timeline.multicamClip clipId = some clip → clip.Authored)
    (h : applyMulticamMutation before (.moveCut timelineId clipId origin destination) = .ok after) :
    shownAngle after.timelines timelineId clipId r ≠ shownAngle before.timelines timelineId clipId r ↔
      Sweeps before.timelines timelineId clipId origin destination r := by
  obtain ⟨timeline, clip, c, d, state, next, htimeline, hclip, hc, hd, hstate, hnext, rfl⟩ :=
    moveCut_eq_ok h
  cases htarget : findMulticamTarget before.timelines timelineId clipId with
  | error error =>
      obtain ⟨error', hafter⟩ := findMulticamTarget_set_error next htimeline hstate htarget
      rw [shownAngle_of_error htarget, shownAngle_of_error hafter]
      refine ⟨fun hne => absurd rfl hne, fun hr => ?_⟩
      obtain ⟨target, _, _, _, hfound, -⟩ := hr
      rw [htarget] at hfound
      cases hfound
  | ok target =>
      obtain ⟨timeline', htimeline', hclip', hstate', -⟩ := findMulticamTarget_eq_ok.1 htarget
      obtain rfl : timeline = timeline' := Option.some.inj (htimeline.symm.trans htimeline')
      obtain rfl : clip = target.clip := Option.some.inj (hclip.symm.trans hclip')
      obtain rfl : state = target.state := Option.some.inj (hstate.symm.trans hstate')
      obtain ⟨coverage, f, hcovering⟩ := (hauthored timeline _ htimeline hstate).covering
      obtain ⟨-, first, last, left, right, ⟨hfc, hfd, hcl, hdl⟩, hleft, hright, hpointwise⟩ :=
        hcovering.perform hnext
      have hne := hcovering.moveCut_distinct hnext hfc hcl hleft hright
      have hsweeps : Sweeps before.timelines timelineId clipId origin destination r ↔
          ∃ x, target.clip.path r = some x ∧ (c ≤ x ∧ x < d ∨ d ≤ x ∧ x < c) := by
        constructor
        · rintro ⟨target', c', d', x, htarget', hc', hd', hx, hin⟩
          obtain rfl : target = target' := Except.ok.inj (htarget.symm.trans htarget')
          obtain rfl : c = c' := Option.some.inj (hc.symm.trans hc')
          obtain rfl : d = d' := Option.some.inj (hd.symm.trans hd')
          exact ⟨x, hx, hin⟩
        · rintro ⟨x, hx, hin⟩
          exact ⟨target, c, d, x, htarget, hc, hd, hx, hin⟩
      rw [shownAngle_of_target htarget, hsweeps,
        shownAngle_of_target (findMulticamTarget_set next htimeline htarget)]
      cases hx : target.clip.path r with
      | none => simp
      | some x =>
          simp only [Option.bind_some, Option.some_inj, exists_eq_left']
          rw [hpointwise x]
          simp only [RationalTime.le_iff_seconds, RationalTime.lt_iff_seconds] at *
          by_cases hup : c.seconds ≤ x.seconds ∧ x.seconds < d.seconds
          · rw [if_pos hup, hright x hup.1 (hup.2.trans hdl)]
            simpa [Except.toOption, hup] using hne
          · rw [if_neg hup]
            by_cases hdown : d.seconds ≤ x.seconds ∧ x.seconds < c.seconds
            · rw [if_pos hdown, hleft x (hfd.le.trans hdown.1) hdown.2]
              simpa [Except.toOption, hdown] using hne.symm
            · rw [if_neg hdown]
              simp [hup, hdown]

end Editorial
end Superi

import Superi.Lib.Machine
import Superi.Lib.Piecewise
import Superi.Timeline.Closure
import Superi.Timeline.Multicam

/-!
# MulticamSwitching — the program of a multicam clip as a function of time

A switch program draws a function from the instants of its coverage to angles.  Selecting an angle
repaints the function on a range; moving a cut paints the angle of the other side between the two
places of the cut.  Both keep the drawing compact, and neither leaves anything behind when it fails.
-/

namespace Superi
namespace Core
namespace TimeRange

open Result

/-- Two coordinates of one clock, the first of them not negative, bound a range. -/
theorem exists_fromStartEnd {start endExclusive : RationalTime}
    (htb : start.timebase = endExclusive.timebase) (hnonneg : 0 ≤ start.seconds)
    (hle : start.seconds ≤ endExclusive.seconds) :
    ∃ range, fromStartEnd start endExclusive = .ok range ∧ range.start = start ∧
      range.endExclusive = endExclusive := by
  have hvalue : start.value ≤ endExclusive.value :=
    (RationalTime.value_le_iff_seconds htb).2 hle
  have hstart : 0 ≤ start.value := by
    have hnot : ¬ start.isNegative = true := fun hneg =>
      absurd (RationalTime.isNegative_iff_seconds.1 hneg) (not_lt.2 hnonneg)
    simpa [RationalTime.isNegative] using hnot
  obtain ⟨hlow, hhigh⟩ := endExclusive.inRange
  have hfits : InI64 (endExclusive.value - start.value) := by
    unfold InI64 i64Min i64Max at *
    omega
  obtain ⟨duration, hduration⟩ : ∃ duration,
      Duration.new (endExclusive.value - start.value).toNat start.timebase = .ok duration := by
    refine ⟨⟨(endExclusive.value - start.value).toNat, start.timebase, ?_⟩, ?_⟩
    · rw [Int.toNat_of_nonneg (by omega)]
      exact hfits.2
    · exact Duration.new_eq_ok.2 ⟨rfl, rfl⟩
  obtain ⟨hdvalue, hdtb⟩ := Duration.new_eq_ok.1 hduration
  have hend : InI64 (start.value + duration.value) := by
    rw [hdvalue, Int.toNat_of_nonneg (by omega)]
    simpa using endExclusive.inRange
  have hok : fromStartEnd start endExclusive = .ok ⟨start, duration, hdtb.symm, hend⟩ := by
    unfold fromStartEnd
    simp only [bind_eq_ok, rejectIf_eq_ok]
    exact ⟨⟨⟩, not_not.2 htb, ⟨⟩, not_not.2 hfits, ⟨⟩, by omega, duration, hduration,
      new_eq_ok.2 ⟨rfl, rfl⟩⟩
  exact ⟨_, hok, fromStartEnd_spec hok⟩

end TimeRange
end Core

namespace Editorial

open Core Result Tiling Piecewise Stateful

/-! ## The drawn function -/

namespace MulticamSwitch

def opens (switch : MulticamSwitch) : ℚ := switch.sourceRange.start.seconds
def closes (switch : MulticamSwitch) : ℚ := switch.sourceRange.endExclusive.seconds

end MulticamSwitch

open MulticamSwitch (opens closes)

/-- The switches of one clock draw `f` from the instant `a` on. -/
structure Drawn (clock : Timebase) (a : ℚ) (switches : List MulticamSwitch) (b : ℚ)
    (f : ℚ → Option MulticamAngleId) : Prop where
  draws : Draws opens closes MulticamSwitch.angleId a switches b f
  clock : ∀ switch ∈ switches, switch.sourceRange.timebase = clock
  nonneg : 0 ≤ a

variable {clock : Timebase} {a b m : ℚ} {f g : ℚ → Option MulticamAngleId}
  {output switches : List MulticamSwitch} {clip : MulticamClip}

theorem Drawn.congr (h : Drawn clock a switches b f) (hfg : ∀ t, f t = g t) :
    Drawn clock a switches b g :=
  ⟨h.draws.congr hfg, h.clock, h.nonneg⟩

/-- `angle_at` reads the drawn function. -/
theorem angleAt_eq (h : Drawn clock a clip.switches b f) (t : RationalTime) :
    clip.angleAt t = okOr (f t.seconds)
      (invalidMulticam "resolve_angle" "multicam source time lies outside the clip switch program") := by
  have hfind : (clip.switches.find? fun switch => switch.sourceRange.contains t) =
      clip.switches.find? fun switch => decide (switch.opens ≤ t.seconds ∧ t.seconds < switch.closes) := by
    congr 1
    funext switch
    rw [Bool.eq_iff_iff, decide_eq_true_iff]
    exact TimeRange.contains_iff_seconds
  rw [← h.draws.value, valueAt, ← hfind, MulticamClip.angleAt]
  cases clip.switches.find? fun switch => switch.sourceRange.contains t <;> rfl

/-! ## Pushing -/

/-- The switch that is pushed is painted behind what is there. -/
theorem Drawn.pushSwitch (h : Drawn clock a output m f) (next : MulticamSwitch)
    (hclock : next.sourceRange.timebase = clock) (hopens : next.opens = m)
    (hpos : next.opens < next.closes) :
    ∃ output', MulticamClip.pushSwitch output next = .ok output' ∧
      Drawn clock a output' next.closes (paint f next.opens next.closes next.angleId) := by
  unfold MulticamClip.pushSwitch
  cases hlast : output.getLast? with
  | none =>
      cases List.getLast?_eq_none_iff.1 hlast
      refine ⟨[next], rfl, h.draws.push hopens hpos (by simp), ?_, h.nonneg⟩
      simpa using hclock
  | some last =>
      obtain ⟨front, rfl⟩ := List.getLast?_eq_some_iff.1 hlast
      have hborder : last.sourceRange.endExclusive ≈ next.sourceRange.start := by
        obtain ⟨n, -, hend⟩ := tiles_append.1 h.draws.tiles
        exact RationalTime.equiv_iff_seconds.2 ((tiles_singleton.1 hend).2.2.trans hopens.symm)
      by_cases hangle : last.angleId = next.angleId
      · have hlastclock : last.sourceRange.timebase = clock := h.clock last (by simp)
        obtain ⟨hlastlow, hlastpos, -⟩ := h.draws.tiles.mem_bounds
          (List.mem_append_right _ (List.mem_singleton_self last))
        have hle : last.sourceRange.start.seconds ≤ next.sourceRange.endExclusive.seconds :=
          hlastpos.trans ((RationalTime.equiv_iff_seconds.1 hborder).trans_le hpos.le)
        have hclocks : last.sourceRange.start.timebase = next.sourceRange.endExclusive.timebase :=
          hlastclock.trans hclock.symm
        obtain ⟨merged, hmerged, hstart, hend⟩ :=
          TimeRange.exists_fromStartEnd hclocks (h.nonneg.trans hlastlow) hle
        refine ⟨front ++ [{ last with sourceRange := merged }], ?_, ?_, ?_, h.nonneg⟩
        · simp only
          rw [if_pos ⟨hangle, hborder⟩, hmerged, List.dropLast_concat]
          rfl
        · exact h.draws.grow hopens hpos hangle (congrArg RationalTime.seconds hstart)
            (congrArg RationalTime.seconds hend) rfl
        · intro switch hswitch
          rcases List.mem_append.1 hswitch with hswitch | hswitch
          · exact h.clock switch (List.mem_append_left _ hswitch)
          · rw [List.mem_singleton.1 hswitch, ← hlastclock]
            exact congrArg RationalTime.timebase hstart
      · simp only [hangle, false_and, if_false]
        refine ⟨_, rfl, h.draws.push hopens hpos ?_, ?_, h.nonneg⟩
        · rw [hlast]
          rintro _ ⟨⟩
          exact hangle
        · intro switch hswitch
          rcases List.mem_append.1 hswitch with hswitch | hswitch
          · exact h.clock switch hswitch
          · rw [List.mem_singleton.1 hswitch]
            exact hclock

theorem Drawn.pushBetween {start endExclusive : RationalTime} (h : Drawn clock a output m f)
    (hstart : start.timebase = clock) (hend : endExclusive.timebase = clock)
    (hopens : start.seconds = m) (hpos : start.seconds < endExclusive.seconds)
    (angle : MulticamAngleId) :
    ∃ output', MulticamClip.pushBetween output start endExclusive angle = .ok output' ∧
      Drawn clock a output' endExclusive.seconds
        (paint f start.seconds endExclusive.seconds angle) := by
  obtain ⟨range, hrange, rfl, rfl⟩ := TimeRange.exists_fromStartEnd (hstart.trans hend.symm)
    (h.nonneg.trans (h.draws.tiles.le.trans hopens.ge)) hpos.le
  obtain ⟨output', hpush, hdrawn⟩ := h.pushSwitch ⟨range, angle⟩ hstart hopens hpos
  refine ⟨output', ?_, hdrawn⟩
  unfold MulticamClip.pushBetween
  rw [hrange]
  exact hpush

/-- A push that is left out when there is nothing between the coordinates. -/
theorem Drawn.pushRemainder {start endExclusive : RationalTime} (h : Drawn clock a output m f)
    (hstart : start.timebase = clock) (hend : endExclusive.timebase = clock)
    (hopens : start.seconds < endExclusive.seconds → start.seconds = m) (angle : MulticamAngleId) :
    ∃ output', MulticamClip.pushRemainder output start endExclusive angle = .ok output' ∧
      Drawn clock a output' (if start.seconds < endExclusive.seconds then endExclusive.seconds else m)
        (paint f start.seconds endExclusive.seconds angle) := by
  unfold MulticamClip.pushRemainder
  simp only [RationalTime.lt_iff_seconds]
  by_cases hpos : start.seconds < endExclusive.seconds
  · rw [if_pos hpos, if_pos hpos]
    exact h.pushBetween hstart hend (hopens hpos) hpos angle
  · rw [if_neg hpos, if_neg hpos]
    refine ⟨output, rfl, h.congr fun t => ?_⟩
    rw [paint, if_neg fun hcovers => hpos (lt_of_le_of_lt hcovers.1 hcovers.2)]

/-! ## Selecting an angle -/

/-- One turn of the loop repaints the switch on the range. -/
theorem Drawn.switchOverlap {range : TimeRange} {angle : MulticamAngleId} {switch : MulticamSwitch}
    (h : Drawn clock a output m (repaint g range.start.seconds range.endExclusive.seconds angle))
    (hrange : range.timebase = clock) (hpositive : range.start.seconds < range.endExclusive.seconds)
    (hclock : switch.sourceRange.timebase = clock) (hopens : switch.opens = m)
    (hpos : switch.opens < switch.closes) :
    ∃ output', MulticamClip.switchOverlap range angle output switch = .ok output' ∧
      Drawn clock a output' switch.closes (repaint (paint g switch.opens switch.closes
        switch.angleId) range.start.seconds range.endExclusive.seconds angle) := by
  unfold MulticamClip.switchOverlap
  simp only [RationalTime.lt_iff_seconds, RationalTime.le_iff_seconds]
  rw [show switch.sourceRange.start.seconds = switch.opens from rfl,
    show switch.sourceRange.endExclusive.seconds = switch.closes from rfl]
  by_cases hapart : switch.closes ≤ range.start.seconds ∨ range.endExclusive.seconds ≤ switch.opens
  · rw [if_pos hapart]
    obtain ⟨output', hpush, hdrawn⟩ := h.pushSwitch _ hclock hopens hpos
    refine ⟨output', hpush, hdrawn.congr fun t => ?_⟩
    rw [repaint_paint, paint]
    split_ifs with hcovers hin <;> first | rfl | skip
    rcases hapart with hapart | hapart <;> linarith [hcovers.1, hcovers.2, hin.1, hin.2]
  · rw [if_neg hapart]
    obtain ⟨hbefore, hbehind⟩ := not_or.1 hapart
    rw [not_le] at hbefore hbehind
    obtain ⟨first, hfirst, hdrawn⟩ := @Drawn.pushRemainder _ _ _ _ _ switch.sourceRange.start
      range.start h hclock hrange (fun _ => hopens) switch.angleId
    -- the two ends of the overlap
    have hstart : (if range.start.seconds < switch.opens then switch.sourceRange.start
        else range.start).seconds = max switch.opens range.start.seconds := by
      split_ifs with hlt
      · exact (max_eq_left hlt.le).symm
      · exact (max_eq_right (not_lt.1 hlt)).symm
    have hend : (if switch.closes < range.endExclusive.seconds then switch.sourceRange.endExclusive
        else range.endExclusive).seconds = min switch.closes range.endExclusive.seconds := by
      split_ifs with hlt
      · exact (min_eq_left hlt.le).symm
      · exact (min_eq_right (not_lt.1 hlt)).symm
    have hinside : max switch.opens range.start.seconds < min switch.closes range.endExclusive.seconds :=
      max_lt (lt_min hpos hbehind) (lt_min hbefore hpositive)
    have hmiddle : max switch.opens range.start.seconds =
        if switch.opens < range.start.seconds then range.start.seconds else m := by
      split_ifs with hlt
      · exact max_eq_right hlt.le
      · exact (max_eq_left (not_lt.1 hlt)).trans hopens
    obtain ⟨second, hsecond, hdrawn⟩ := hdrawn.pushBetween (by split_ifs <;> assumption)
      (by split_ifs <;> assumption) (hstart.trans hmiddle) (hstart.trans_lt (hinside.trans_eq hend.symm))
      angle
    rw [hstart, hend] at hdrawn
    obtain ⟨third, hthird, hdrawn⟩ := @Drawn.pushRemainder _ _ _ _ _ range.endExclusive
      switch.sourceRange.endExclusive hdrawn hrange hclock (fun hlt => (min_eq_right hlt.le).symm)
      switch.angleId
    refine ⟨third, ?_, ?_⟩
    · simp only [bind_eq_ok]
      exact ⟨first, hfirst, second, hsecond, hthird⟩
    · have hcloses : (if range.endExclusive.seconds < switch.sourceRange.endExclusive.seconds
          then switch.sourceRange.endExclusive.seconds
          else min switch.closes range.endExclusive.seconds) = switch.closes := by
        split_ifs with hlt
        · rfl
        · exact min_eq_left (not_lt.1 hlt)
      rw [hcloses] at hdrawn
      exact hdrawn.congr (paint_around hbehind hbefore hpositive)

/-- The loop repaints every switch on the range. -/
theorem Drawn.foldlM_switchOverlap {range : TimeRange} {angle : MulticamAngleId}
    (h : Drawn clock a output m (repaint g range.start.seconds range.endExclusive.seconds angle))
    (hrange : range.timebase = clock) (hpositive : range.start.seconds < range.endExclusive.seconds)
    (htiles : Tiles opens closes m switches b) (hpos : ∀ switch ∈ switches, switch.opens < switch.closes)
    (hclock : ∀ switch ∈ switches, switch.sourceRange.timebase = clock) :
    ∃ output', switches.foldlM (MulticamClip.switchOverlap range angle) output = .ok output' ∧
      Drawn clock a output' b (repaint (fun t => (valueAt opens closes MulticamSwitch.angleId
        switches t).or (g t)) range.start.seconds range.endExclusive.seconds angle) := by
  induction switches generalizing output m g with
  | nil =>
      cases tiles_nil.1 htiles
      exact ⟨output, rfl, h⟩
  | cons switch rest ih =>
      obtain ⟨hopens, -, htail⟩ := htiles
      obtain ⟨mid, hmid, hdrawn⟩ := h.switchOverlap hrange hpositive
        (hclock switch List.mem_cons_self) hopens (hpos switch List.mem_cons_self)
      obtain ⟨output', hrest, hdrawn⟩ := ih hdrawn htail
        (fun other hother => hpos other (List.mem_cons_of_mem _ hother))
        fun other hother => hclock other (List.mem_cons_of_mem _ hother)
      refine ⟨output', ?_, hdrawn.congr fun t => ?_⟩
      · rw [List.foldlM_cons, hmid]
        exact hrest
      · -- the first switch is the only one that covers its instants
        have hvalue : (valueAt opens closes MulticamSwitch.angleId rest t).or
            (paint g switch.opens switch.closes switch.angleId t) =
              (valueAt opens closes MulticamSwitch.angleId (switch :: rest) t).or (g t) := by
          rw [valueAt_cons, paint]
          split_ifs with hcovers
          · rw [valueAt_eq_none htail (.inl hcovers.2)]
            rfl
          · rfl
        simp only [repaint, hvalue]

/-! ## The partition -/

theorem validateSwitches_of_tiles {expected : RationalTime}
    (htiles : Tiles opens closes expected.seconds switches b)
    (hpos : ∀ switch ∈ switches, switch.opens < switch.closes)
    (hclock : ∀ switch ∈ switches, switch.sourceRange.timebase = expected.timebase) :
    MulticamClip.validateSwitches expected switches = .ok () := by
  induction switches generalizing expected with
  | nil => rfl
  | cons switch rest ih =>
      obtain ⟨hopens, -, htail⟩ := htiles
      have hfirst := hclock switch List.mem_cons_self
      simp only [MulticamClip.validateSwitches, bind_eq_ok, rejectIf_eq_ok]
      refine ⟨⟨⟩, ?_, ih htail (fun other hother => hpos other (List.mem_cons_of_mem _ hother)) ?_⟩
      · rintro (hempty | hstart | htimebase)
        · rw [TimeRange.start_lt_end_iff.1 (hpos switch List.mem_cons_self)] at hempty
          cases hempty
        · exact hstart (RationalTime.equiv_iff_seconds.2 hopens)
        · exact htimebase hfirst
      · intro other hother
        exact (hclock other (List.mem_cons_of_mem _ hother)).trans hfirst.symm

/-- What holds of the program of a multicam clip that covers `coverage`. -/
structure Covering (coverage : TimeRange) (clip : MulticamClip) (f : ℚ → Option MulticamAngleId) :
    Prop where
  drawn : Drawn coverage.timebase coverage.start.seconds clip.switches
    coverage.endExclusive.seconds f
  nonempty : coverage.start.seconds < coverage.endExclusive.seconds

variable {coverage : TimeRange}

namespace Covering

theorem switches_ne_nil (h : Covering coverage clip f) : clip.switches ≠ [] := fun hnil =>
  absurd (tiles_nil.1 (hnil ▸ h.drawn.draws.tiles)) h.nonempty.ne

theorem validatePartition (h : Covering coverage clip f) : clip.validatePartition = .ok () := by
  have hdrawn := h.drawn
  unfold MulticamClip.validatePartition
  cases hswitches : clip.switches with
  | nil => exact absurd hswitches h.switches_ne_nil
  | cons first rest =>
      rw [hswitches] at hdrawn
      have hfirst := hdrawn.clock first List.mem_cons_self
      refine validateSwitches_of_tiles (b := coverage.endExclusive.seconds) ?_ hdrawn.draws.positive
        fun other hother => (hdrawn.clock other hother).trans hfirst.symm
      obtain ⟨hopens, htail⟩ := hdrawn.draws.tiles
      exact ⟨rfl, htail⟩

/-- A range is determined by its clock and its two ends. -/
theorem range_ext {left right : TimeRange} (htb : left.timebase = right.timebase)
    (hstart : left.start.seconds = right.start.seconds)
    (hend : left.endExclusive.seconds = right.endExclusive.seconds) : left = right := by
  have hs : left.start = right.start := RationalTime.ext_of_seconds htb hstart
  have hd : left.duration = right.duration := by
    refine Duration.ext_of_seconds ?_ ?_
    · rw [TimeRange.duration_timebase, TimeRange.duration_timebase, htb]
    · rw [TimeRange.seconds_endExclusive, TimeRange.seconds_endExclusive, hstart] at hend
      exact add_left_cancel hend
  cases left
  cases right
  simp_all

theorem coverage_eq (h : Covering coverage clip f) : clip.coverage = some coverage := by
  have hdrawn := h.drawn
  obtain ⟨first, hfirst⟩ : ∃ first, clip.switches.head? = some first :=
    Option.isSome_iff_exists.1 (List.isSome_head?.2 h.switches_ne_nil)
  obtain ⟨last, hlast⟩ : ∃ last, clip.switches.getLast? = some last :=
    Option.isSome_iff_exists.1 (List.getLast?_isSome.2 h.switches_ne_nil)
  have hopens : first.opens = coverage.start.seconds := by
    obtain ⟨rest, hrest⟩ := List.head?_eq_some_iff.1 hfirst
    have htiles := hdrawn.draws.tiles
    rw [hrest] at htiles
    exact htiles.1
  have hcloses : last.closes = coverage.endExclusive.seconds := by
    obtain ⟨front, hfront⟩ := List.getLast?_eq_some_iff.1 hlast
    have htiles := hdrawn.draws.tiles
    rw [hfront] at htiles
    obtain ⟨n, -, hend⟩ := tiles_append.1 htiles
    exact (tiles_singleton.1 hend).2.2
  have hfirstclock := hdrawn.clock first (List.mem_of_head? hfirst)
  have hlastclock := hdrawn.clock last (List.mem_of_getLast? hlast)
  have hclocks : first.sourceRange.start.timebase = last.sourceRange.endExclusive.timebase :=
    hfirstclock.trans hlastclock.symm
  obtain ⟨covered, hcovered, hstart, hend⟩ := TimeRange.exists_fromStartEnd hclocks
    (hdrawn.nonneg.trans hopens.ge) ((hopens.trans_lt h.nonempty).trans_eq hcloses.symm).le
  have heq : covered = coverage := by
    refine range_ext ?_ ?_ ?_
    · exact (congrArg RationalTime.timebase hstart).trans hfirstclock
    · exact (congrArg RationalTime.seconds hstart).trans hopens
    · exact (congrArg RationalTime.seconds hend).trans hcloses
  unfold MulticamClip.coverage
  rw [hfirst, hlast]
  simp only [Option.bind_eq_bind, Option.bind_some, hcovered, heq]
  rfl

/-- `switch_range` is refused without a change, or repaints the range. -/
theorem switchWithin (h : Covering coverage clip f) (range : TimeRange) (angle : MulticamAngleId) :
    Ensures (MulticamClip.switchWithin coverage range angle) clip
      (fun _ last => Covering coverage last
        (repaint f range.start.seconds range.endExclusive.seconds angle) ∧
          coverage.start.seconds ≤ range.start.seconds ∧
          range.endExclusive.seconds ≤ coverage.endExclusive.seconds)
      fun last => last = clip := by
  refine .check rfl fun hinside => .get ?_
  simp only [not_or, RationalTime.lt_iff_seconds, not_lt, not_not] at hinside
  obtain ⟨hnonempty, hclock, hstart, hend⟩ := hinside
  have hpositive := TimeRange.start_lt_end_iff.2 (Bool.eq_false_iff.2 hnonempty)
  have hempty : Drawn coverage.timebase coverage.start.seconds [] coverage.start.seconds
      (repaint (fun _ => none) range.start.seconds range.endExclusive.seconds angle) := by
    refine ⟨(Draws.nil _).congr fun t => ?_, by simp, h.drawn.nonneg⟩
    unfold repaint
    split <;> rfl
  obtain ⟨output, hloop, hdrawn⟩ := hempty.foldlM_switchOverlap hclock hpositive
    h.drawn.draws.tiles h.drawn.draws.positive h.drawn.clock
  have hnext : Covering coverage { clip with switches := output }
      (repaint f range.start.seconds range.endExclusive.seconds angle) := by
    refine ⟨hdrawn.congr fun t => ?_, h.nonempty⟩
    simp only [repaint, h.drawn.draws.value, Option.or_none]
  refine .through (fun value last => value = output ∧ last = clip)
    (.of_succeeds (.ofExcept hloop ⟨rfl, rfl⟩)) ?_
  rintro _ _ ⟨rfl, rfl⟩
  refine .change (.get (.of_succeeds (.ofExcept hnext.validatePartition ⟨hnext, hstart, hend⟩)))

end Covering

/-! ## Moving a cut -/

/-- The two neighbours that are found meet at the cut. -/
theorem findCut_eq_some {cut : RationalTime} {index : Nat} {left right : MulticamSwitch}
    (h : MulticamClip.findCut cut switches = some (index, left, right)) :
    ∃ front back, switches = front ++ left :: right :: back ∧ front.length = index ∧
      left.closes = cut.seconds ∧ right.opens = cut.seconds := by
  induction switches generalizing index with
  | nil => cases h
  | cons first rest ih =>
      cases rest with
      | nil => cases h
      | cons second rest =>
          unfold MulticamClip.findCut at h
          split at h
          · rename_i hmeets
            cases h
            exact ⟨[], rest, rfl, rfl, RationalTime.equiv_iff_seconds.1 hmeets.1,
              RationalTime.equiv_iff_seconds.1 hmeets.2⟩
          · obtain ⟨⟨index', pair⟩, hfound, heq⟩ := Option.map_eq_some_iff.1 h
            cases heq
            obtain ⟨front, back, hsplit, hlength, hmeets⟩ := ih hfound
            exact ⟨first :: front, back, by rw [hsplit]; rfl, by rw [List.length_cons, hlength],
              hmeets⟩

theorem modify_length (front back : List MulticamSwitch) (switch : MulticamSwitch)
    (change : MulticamSwitch → MulticamSwitch) :
    (front ++ switch :: back).modify front.length change = front ++ change switch :: back := by
  induction front with
  | nil => rfl
  | cons first rest ih => exact congrArg (first :: ·) ih

/-- What moving a cut does to the drawn function: between the two places of the cut the angle of the
other side is taken. -/
structure CutMoved (f g : ℚ → Option MulticamAngleId) (c d x y : ℚ)
    (left right : MulticamAngleId) : Prop where
  inside : x < c ∧ x < d ∧ c < y ∧ d < y
  before : ∀ t, x ≤ t → t < c → f t = some left
  behind : ∀ t, c ≤ t → t < y → f t = some right
  after : ∀ t, g t = paint (paint f d c right) c d left t

namespace Covering

/-- `move_cut` is refused without a change, or moves the border of two neighbours. -/
theorem moveCut (h : Covering coverage clip f) (cut target : RationalTime) :
    Ensures (MulticamClip.moveCut cut target) clip
      (fun _ last => ∃ g left right, Covering coverage last g ∧
        CutMoved f g cut.seconds target.seconds (opens left) (closes right) left.angleId right.angleId ∧
          left ∈ clip.switches ∧ right ∈ clip.switches)
      fun last => last = clip := by
  refine .check rfl fun hclocks => .get ?_
  refine .through (fun found last => MulticamClip.findCut cut clip.switches = some found ∧ last = clip)
    (.ofExcept rfl fun found hfound => ⟨okOr_eq_ok.1 hfound, rfl⟩) ?_
  rintro ⟨index, left, right⟩ clip ⟨hfound, rfl⟩
  obtain ⟨front, back, hsplit, rfl, hleftends, -⟩ := findCut_eq_some hfound
  refine .check rfl fun hinside => ?_
  simp only [not_or, RationalTime.le_iff_seconds, not_le] at hinside
  obtain ⟨hlow, hhigh, -⟩ := hinside
  refine .through (fun leftRange reached => TimeRange.fromStartEnd left.sourceRange.start target =
    .ok leftRange ∧ reached = clip) (.ofExcept rfl fun leftRange hrange => ⟨hrange, rfl⟩) ?_
  rintro leftRange clip ⟨hleftrange, rfl⟩
  obtain ⟨hleftstart, hleftend⟩ := TimeRange.fromStartEnd_spec hleftrange
  have hleft : left ∈ clip.switches := by rw [hsplit]; simp
  have hright : right ∈ clip.switches := by rw [hsplit]; simp
  -- the second range exists, so nothing fails after the first change
  have htarget : target.timebase = coverage.timebase := by
    rw [← h.drawn.clock left hleft, ← hleftend, TimeRange.endExclusive_timebase]
    exact congrArg RationalTime.timebase hleftstart
  have hclock : target.timebase = right.sourceRange.endExclusive.timebase :=
    htarget.trans (h.drawn.clock right hright).symm
  have hnonneg : 0 ≤ target.seconds :=
    h.drawn.nonneg.trans ((h.drawn.draws.tiles.mem_bounds hleft).1.trans hlow.le)
  obtain ⟨rightRange, hrightrange, hrightstart, hrightend⟩ :=
    TimeRange.exists_fromStartEnd hclock hnonneg hhigh.le
  refine .change (.through (fun value last => value = rightRange ∧
    last = clip.setRange front.length leftRange) (.of_succeeds (.ofExcept hrightrange ⟨rfl, rfl⟩)) ?_)
  rintro rightRange _ ⟨rfl, rfl⟩
  have hswitches : ((clip.setRange front.length leftRange).setRange (front.length + 1)
      rightRange).switches = front ++ { left with sourceRange := leftRange } ::
        { right with sourceRange := rightRange } :: back := by
    simp only [MulticamClip.setRange, hsplit, modify_length]
    have hmodify := modify_length (front ++ [{ left with sourceRange := leftRange }]) back right
      fun switch => { switch with sourceRange := rightRange }
    simpa using hmodify
  have hleft' : opens { left with sourceRange := leftRange } = opens left ∧
      closes { left with sourceRange := leftRange } = target.seconds ∧
        left.angleId = left.angleId :=
    ⟨congrArg RationalTime.seconds hleftstart, congrArg RationalTime.seconds hleftend, rfl⟩
  have hright' : opens { right with sourceRange := rightRange } = target.seconds ∧
      closes { right with sourceRange := rightRange } = closes right ∧
        right.angleId = right.angleId :=
    ⟨congrArg RationalTime.seconds hrightstart, congrArg RationalTime.seconds hrightend, rfl⟩
  obtain ⟨hleftpos, hrightpos, hbefore, hbehind, hdraws⟩ :=
    (hsplit ▸ h.drawn.draws).move hleftends hlow hhigh hleft' hright'
  have hnext : Covering coverage ((clip.setRange front.length leftRange).setRange (front.length + 1)
      rightRange) (paint (paint f target.seconds cut.seconds right.angleId) cut.seconds
        target.seconds left.angleId) := by
    refine ⟨⟨hswitches ▸ hdraws, ?_, h.drawn.nonneg⟩, h.nonempty⟩
    rw [hswitches]
    intro switch hswitch
    simp only [List.mem_append, List.mem_cons] at hswitch
    rcases hswitch with hswitch | rfl | rfl | hswitch
    · exact h.drawn.clock switch (by rw [hsplit]; simp [hswitch])
    · exact (congrArg RationalTime.timebase hleftend).trans htarget
    · exact (congrArg RationalTime.timebase hrightstart).trans htarget
    · exact h.drawn.clock switch (by rw [hsplit]; simp [hswitch])
  refine .change (.get (.of_succeeds (.ofExcept hnext.validatePartition
    ⟨_, left, right, hnext, ⟨⟨hleftpos, hlow, hrightpos, hhigh⟩, hbefore, hbehind, fun _ => rfl⟩,
      hleft, hright⟩)))

end Covering

/-! ## Runs -/

/-- The two calls that change the switches of a clip. -/
inductive SwitchCall
  | switchRange (sourceRange : TimeRange) (angleId : MulticamAngleId)
  | moveCut (cut target : RationalTime)
  deriving DecidableEq, Repr

namespace SwitchCall

/-- Make the call; `none` stands for a panic. -/
def apply : SwitchCall → MulticamClip → Option (EStateM.Result Error MulticamClip Unit)
  | switchRange sourceRange angleId, clip => clip.switchRange sourceRange angleId
  | moveCut cut target, clip => some (MulticamClip.moveCut cut target clip)

/-- What a successful call does to the angle of every instant. -/
def Pointwise (before after : MulticamClip) : SwitchCall → Prop
  | switchRange range angle => ∀ t, after.angleAt t =
      if range.start ≤ t ∧ t < range.endExclusive then .ok angle else before.angleAt t
  | moveCut cut target => ∃ first last left right,
      (first < cut ∧ first < target ∧ cut < last ∧ target < last) ∧
      (∀ t, first ≤ t → t < cut → before.angleAt t = .ok left) ∧
      (∀ t, cut ≤ t → t < last → before.angleAt t = .ok right) ∧
      ∀ t, after.angleAt t = if cut ≤ t ∧ t < target then .ok left
        else if target ≤ t ∧ t < cut then .ok right else before.angleAt t

end SwitchCall

/-- The switches cut the coverage into neighbouring intervals of its clock, none empty, no two
neighbours with one angle. -/
structure Partitions (switches : List MulticamSwitch) (coverage : TimeRange) : Prop where
  tiles : Tiles opens closes coverage.start.seconds switches coverage.endExclusive.seconds
  nonempty : ∀ switch ∈ switches, switch.sourceRange.isEmpty = false
  clock : ∀ switch ∈ switches, switch.sourceRange.timebase = coverage.timebase
  distinct : switches.IsChain fun left right => left.angleId ≠ right.angleId

/-- A successful call. -/
def switchStep (clip : MulticamClip) (call : SwitchCall) : Option MulticamClip :=
  match call.apply clip with
  | some (.ok _ next) => some next
  | _ => none

namespace Covering

theorem partitions (h : Covering coverage clip f) : Partitions clip.switches coverage :=
  ⟨h.drawn.draws.tiles,
    fun switch hswitch => TimeRange.start_lt_end_iff.1 (h.drawn.draws.positive switch hswitch),
    h.drawn.clock, h.drawn.draws.compact⟩

theorem of_new {clipId : ClipId} {angle : MulticamAngleId} {policy : MulticamAudioPolicy}
    (h : MulticamClip.new clipId coverage angle policy = .ok clip) : ∃ f, Covering coverage clip f := by
  unfold MulticamClip.new at h
  simp only [bind_eq_ok, rejectIf_eq_ok, pure_eq_ok, not_or] at h
  obtain ⟨⟨⟩, ⟨hnonempty, hnonneg⟩, rfl⟩ := h
  have hpositive := TimeRange.start_lt_end_iff.2 (Bool.eq_false_iff.2 hnonempty)
  have hstart : 0 ≤ coverage.start.seconds := by
    rw [RationalTime.isNegative_iff_seconds] at hnonneg
    exact not_lt.1 hnonneg
  exact ⟨_, ⟨(Draws.nil _).push rfl hpositive (by simp), by simp, hstart⟩, hpositive⟩

theorem pointwise_switchRange {range : TimeRange} {angle : MulticamAngleId} {last : MulticamClip}
    (h : Covering coverage clip f)
    (hlast : Covering coverage last (repaint f range.start.seconds range.endExclusive.seconds angle))
    (hstart : coverage.start.seconds ≤ range.start.seconds)
    (hend : range.endExclusive.seconds ≤ coverage.endExclusive.seconds) :
    SwitchCall.Pointwise clip last (.switchRange range angle) := by
  intro t
  rw [angleAt_eq hlast.drawn, angleAt_eq h.drawn, repaint]
  simp only [RationalTime.le_iff_seconds, RationalTime.lt_iff_seconds]
  split_ifs with hin
  · -- an instant of the range had an angle before
    have hsome : (valueAt opens closes MulticamSwitch.angleId clip.switches t.seconds).isSome = true :=
      valueAt_isSome h.drawn.draws.tiles (hstart.trans hin.1) (hin.2.trans_le hend)
    rw [h.drawn.draws.value] at hsome
    obtain ⟨old, hold⟩ := Option.isSome_iff_exists.1 hsome
    rw [hold]
    rfl
  · rfl

theorem pointwise_moveCut {cut target : RationalTime} {left right : MulticamSwitch}
    {last : MulticamClip} (h : Covering coverage clip f) (hlast : Covering coverage last g)
    (hmoved : CutMoved f g cut.seconds target.seconds (opens left) (closes right) left.angleId
      right.angleId) : SwitchCall.Pointwise clip last (.moveCut cut target) := by
  refine ⟨left.sourceRange.start, right.sourceRange.endExclusive, left.angleId, right.angleId, ?_,
    fun t hfirst hcut => ?_, fun t hcut hbound => ?_, fun t => ?_⟩
  · simp only [RationalTime.lt_iff_seconds]
    exact hmoved.inside
  · rw [angleAt_eq h.drawn, hmoved.before t.seconds (RationalTime.le_iff_seconds.1 hfirst)
      (RationalTime.lt_iff_seconds.1 hcut)]
    rfl
  · rw [angleAt_eq h.drawn, hmoved.behind t.seconds (RationalTime.le_iff_seconds.1 hcut)
      (RationalTime.lt_iff_seconds.1 hbound)]
    rfl
  · rw [angleAt_eq hlast.drawn, angleAt_eq h.drawn, hmoved.after]
    simp only [paint, RationalTime.le_iff_seconds, RationalTime.lt_iff_seconds]
    split_ifs <;> rfl

/-- Every call does what it means to do, or changes nothing. -/
theorem apply (h : Covering coverage clip f) (call : SwitchCall) :
    (∃ last, call.apply clip = some (.ok () last) ∧ (∃ g, Covering coverage last g) ∧
      call.Pointwise clip last) ∨ ∃ error, call.apply clip = some (.error error clip) := by
  cases call with
  | switchRange range angle =>
      have hcall : (SwitchCall.switchRange range angle).apply clip =
          some (MulticamClip.switchWithin coverage range angle clip) := by
        rw [SwitchCall.apply, MulticamClip.switchRange, h.coverage_eq, Option.map_some]
      rw [hcall]
      rcases (h.switchWithin range angle).outcome with
        ⟨⟨⟩, last, hok, hlast, hstart, hend⟩ | ⟨error, _, herror, rfl⟩
      · exact .inl ⟨last, congrArg some hok, ⟨_, hlast⟩,
          h.pointwise_switchRange hlast hstart hend⟩
      · exact .inr ⟨error, congrArg some herror⟩
  | moveCut cut target =>
      rcases (h.moveCut cut target).outcome with
        ⟨⟨⟩, last, hok, g, left, right, hlast, hmoved, -, -⟩ | ⟨error, _, herror, rfl⟩
      · exact .inl ⟨last, congrArg some hok, ⟨g, hlast⟩, h.pointwise_moveCut hlast hmoved⟩
      · exact .inr ⟨error, congrArg some herror⟩

theorem run {start : MulticamClip} {calls : List SwitchCall} (h : ∃ f, Covering coverage start f)
    (hrun : Machine.run switchStep start calls = some clip) : ∃ f, Covering coverage clip f := by
  have hkeep : ∀ {state next : MulticamClip} {call : SwitchCall},
      (∃ f, Covering coverage state f) → switchStep state call = some next →
        ∃ f, Covering coverage next f := by
    rintro state next call ⟨f, hstate⟩ hstep
    unfold switchStep at hstep
    rcases hstate.apply call with ⟨last, hcall, hlast, -⟩ | ⟨error, hcall⟩
    · rw [hcall] at hstep
      cases hstep
      exact hlast
    · rw [hcall] at hstep
      cases hstep
  exact Machine.invariant_of_any_run hkeep h hrun

end Covering

/-- In every program that calls can reach the switches partition the coverage; every further call
either fails and changes nothing, or changes the angle of exactly the instants it is about. -/
theorem switching_is_pointwise {clipId : ClipId} {angle : MulticamAngleId}
    {policy : MulticamAudioPolicy} {start : MulticamClip} {calls : List SwitchCall}
    (hnew : MulticamClip.new clipId coverage angle policy = .ok start)
    (hrun : Machine.run switchStep start calls = some clip) :
    Partitions clip.switches coverage ∧ clip.coverage = some coverage ∧
      ∀ call : SwitchCall,
        (∃ last, call.apply clip = some (.ok () last) ∧ call.Pointwise clip last) ∨
          ∃ error, call.apply clip = some (.error error clip) := by
  obtain ⟨f, hcovering⟩ := Covering.run (Covering.of_new hnew) hrun
  refine ⟨hcovering.partitions, hcovering.coverage_eq, fun call => ?_⟩
  rcases hcovering.apply call with ⟨last, hcall, -, hpointwise⟩ | hfailed
  · exact .inl ⟨last, hcall, hpointwise⟩
  · exact .inr hfailed

/-- The second camera over four frames of ten, its first cut moved by two frames. -/
def cutaway : List SwitchCall :=
  [.switchRange (filmRange 3 4 (by decide)) ⟨2⟩,
    .moveCut ⟨3, filmClock, by decide⟩ ⟨5, filmClock, inI64_five⟩]

theorem switching_is_pointwise_cutaway : ∃ start clip,
    MulticamClip.new ⟨1⟩ (filmRange 0 10 (by decide)) ⟨1⟩ .followVideo = .ok start ∧
      Machine.run switchStep start cutaway = some clip ∧ clip.switches.length = 3 ∧
      Partitions clip.switches (filmRange 0 10 (by decide)) := by
  obtain ⟨start, hnew⟩ := exists_ok_of_isSome (x := MulticamClip.new ⟨1⟩
    (filmRange 0 10 (by decide)) ⟨1⟩ .followVideo) (by decide)
  have hlength : (MulticamClip.new ⟨1⟩ (filmRange 0 10 (by decide)) ⟨1⟩ .followVideo).toOption.bind
      (fun start => (Machine.run switchStep start cutaway).map fun clip => clip.switches.length) =
        some 3 := by
    decide +kernel
  rw [hnew] at hlength
  obtain ⟨clip, hrun, hthree⟩ := Option.map_eq_some_iff.1 hlength
  exact ⟨start, clip, hnew, hrun, hthree, (switching_is_pointwise hnew hrun).1⟩

end Editorial
end Superi

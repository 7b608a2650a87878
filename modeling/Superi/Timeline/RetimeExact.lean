import Superi.Core.TimeExact
import Superi.Timeline.RetimeLaws

/-!
# RetimeExact — where retime queries overflow

A query is followed through its 128-bit steps.  The products are checked, but the rounded division
doubles a remainder that is only bounded by a checked 128-bit product, and the doubling is not
checked.  It is asked for by rounding to the nearest alone, and it overflows exactly where twice the
remainder of the exact source offset does not fit.
-/

namespace Superi
namespace Editorial

open Core Result Rounding Tiling

/-! ## The 128-bit steps -/

/-- The refusal of a query that leaves a remainder. -/
def inexactRetime (operation : String) : Error :=
  invalidRetime operation "retime mapping is not exact at the requested source clock"

/-- `divide_retime`, step by step. -/
def divideRetimeMachine (numerator denominator : Int) (rounding : TimeRounding)
    (operation : String) : Machine (Int × Bool) := do
  let quotient ← div128 numerator denominator
  let remainder ← rem128 numerator denominator
  if remainder = 0 then
    Machine.lift (fitRetime quotient true operation)
  else do
    let rounded ← roundQuotientMachine numerator denominator quotient remainder rounding
      (inexactRetime operation)
    Machine.lift (fitRetime rounded false operation)

/-- `source_time_at_offset`, step by step. -/
def sourceTimeAtOffsetMachine (sourceStart : RationalTime) (rate : PlaybackRate)
    (offset : RationalTime) (rounding : TimeRounding) (operation : String) :
    Machine (RationalTime × Bool) :=
  if rate.isFreeze then
    pure (sourceStart, true)
  else do
    let recordTimebase := offset.timebase
    let sourceTimebase := sourceStart.timebase
    let n₁ ← Machine.lift
      (okOr (checkedI128 (offset.value * recordTimebase.denominator)) (overflowRetime operation))
    let n₂ ← Machine.lift (okOr (checkedI128 (n₁ * rate.numerator)) (overflowRetime operation))
    let numerator ← Machine.lift
      (okOr (checkedI128 (n₂ * sourceTimebase.numerator)) (overflowRetime operation))
    let d₁ ← Machine.lift
      (okOr (checkedI128 (recordTimebase.numerator * rate.denominator)) (overflowRetime operation))
    let denominator ← Machine.lift
      (okOr (checkedI128 (d₁ * sourceTimebase.denominator)) (overflowRetime operation))
    let (delta, isExact) ← divideRetimeMachine numerator denominator rounding operation
    let time ← Machine.lift (RationalTime.tryFrom (sourceStart.value + delta) sourceTimebase
      (overflowRetime operation))
    pure (time, isExact)

/-- `TimeRange::contains`, step by step. -/
def containsMachine (range : TimeRange) (time : RationalTime) : Machine Bool := do
  let fromStart ← time.compareMachine range.start
  if fromStart = .lt then pure false
  else do
    let toEnd ← time.compareMachine range.endExclusive
    pure (toEnd = .lt)

/-- How many leading sections start at or before the queried time. -/
def partitionPointMachine (recordTime : RationalTime) : List RetimeSegment → Machine Nat
  | [] => pure 0
  | segment :: rest => do
      let ordering ← segment.recordRange.start.compareMachine recordTime
      if ordering = .gt then pure 0
      else do
        let count ← partitionPointMachine recordTime rest
        pure (count + 1)

/-- `RetimeSegment::source_time_at`, step by step. -/
def RetimeSegment.sourceTimeAtMachine (segment : RetimeSegment) (recordTime : RationalTime)
    (rounding : TimeRounding) (operation : String) : Machine (RationalTime × Bool) := do
  let offset ← recordTime.checkedBinaryAtMachine segment.recordRange.start
    segment.recordRange.timebase .exact .subtract
  sourceTimeAtOffsetMachine segment.sourceStart segment.rate offset rounding operation

/-- `ClipTimeMap::source_time_at`, step by step; an index past the sections has no outcome
either. -/
def ClipTimeMap.sourceTimeAtMachine (map : ClipTimeMap) (recordTime : RationalTime)
    (rounding : TimeRounding) : Machine MappedSourceTime := do
  let complete ← Machine.lift map.complete
  let inside ← containsMachine complete recordTime
  Machine.lift (rejectIf (inside = false) (invalidRetime "resolve_retime_source"
    "retime query must lie inside the half-open clip record duration"))
  let count ← partitionPointMachine recordTime map.segments
  match map.segments[count - 1]? with
  | none => ExceptT.mk none
  | some segment => do
      let covered ← containsMachine segment.recordRange recordTime
      Machine.lift (rejectIf (covered = false) (invalidRetime "resolve_retime_source"
        "retime query did not resolve to complete segment coverage"))
      let (time, isExact) ← segment.sourceTimeAtMachine recordTime rounding "resolve_retime_source"
      let resolution :=
        if segment.rate.isFreeze then .held else if isExact then .exact else .rounded rounding
      pure { time, resolution, segmentIndex := count - 1 }

/-! ## One division -/

variable {numerator denominator : Int} {rounding : TimeRounding} {operation : String}

theorem divideRetime_eq : divideRetime numerator denominator rounding operation =
    if numerator.tmod denominator = 0 then
      fitRetime (numerator.tdiv denominator) true operation
    else
      roundQuotient numerator denominator (numerator.tdiv denominator)
        (numerator.tmod denominator) rounding (inexactRetime operation) >>= fun rounded =>
          fitRetime rounded false operation := by
  unfold divideRetime roundQuotient
  by_cases hrest : numerator.tmod denominator = 0
  · simp only [hrest, if_true]
  · simp only [hrest, if_false]
    cases rounding with
    | exact =>
        simp only [ne_eq, hrest, not_false_eq_true, if_true]
        rfl
    | floor => rfl
    | ceil => rfl
    | towardZero => rfl
    | nearestTiesEven => rfl

theorem divideRetimeMachine_eq (hn : InI128 numerator) (hd : 0 < denominator)
    (hdouble : rounding = .nearestTiesEven →
      InI128 ((numerator.tmod denominator).natAbs * 2)) :
    divideRetimeMachine numerator denominator rounding operation =
      Machine.lift (divideRetime numerator denominator rounding operation) := by
  rw [divideRetimeMachine, div128_eq hn hd, pure_bind, rem128_eq hn hd, pure_bind,
    divideRetime_eq]
  split
  · rfl
  · rw [roundQuotientMachine_eq hn hd hdouble, Machine.lift_bind]

/-- A remainder whose double does not fit leaves rounding to the nearest without an outcome. -/
theorem divideRetimeMachine_overflows (hn : InI128 numerator) (hd : 0 < denominator)
    (hdouble : ¬ InI128 ((numerator.tmod denominator).natAbs * 2)) :
    divideRetimeMachine numerator denominator .nearestTiesEven operation = ExceptT.mk none := by
  rw [divideRetimeMachine, div128_eq hn hd, pure_bind, rem128_eq hn hd, pure_bind, if_neg,
    roundQuotientMachine_overflows hdouble]
  · rfl
  · intro hrest
    rw [hrest] at hdouble
    exact hdouble (by decide)

theorem divideRetime_rounds (hd : 0 < denominator) {value : Int} {isExact : Bool}
    (h : divideRetime numerator denominator rounding operation = .ok (value, isExact)) :
    rounding.Rounds (numerator / denominator) value := by
  rw [divideRetime_eq] at h
  split at h
  · rename_i hrest
    obtain ⟨-, hvalue⟩ := fitRetime_eq_ok.1 h
    cases hvalue
    rw [← (eq_div_iff_tmod hd).2 ⟨hrest, rfl⟩]
    exact rounding.rounds_intCast _
  · obtain ⟨rounded, hrounded, hfit⟩ := bind_eq_ok.1 h
    obtain ⟨-, hvalue⟩ := fitRetime_eq_ok.1 hfit
    cases hvalue
    exact roundQuotient_rounds hd hrounded

/-! ## One section -/

/-- The fraction a query forms: the exact source offset in source units, before any reduction. -/
def retimeNumerator (sourceStart : RationalTime) (rate : PlaybackRate) (offset : RationalTime) :
    Int :=
  offset.value * offset.timebase.denominator * rate.numerator * sourceStart.timebase.numerator

def retimeDenominator (sourceStart : RationalTime) (rate : PlaybackRate) (offset : RationalTime) :
    Int :=
  offset.timebase.numerator * rate.denominator * sourceStart.timebase.denominator

variable {sourceStart offset : RationalTime} {rate : PlaybackRate}

theorem retimeDenominator_pos : 0 < retimeDenominator sourceStart rate offset := by
  have h₁ := offset.timebase.numerator_pos
  have h₂ := rate.denominator_pos
  have h₃ := sourceStart.timebase.denominator_pos
  unfold retimeDenominator
  positivity

theorem retimeFraction_eq : (retimeNumerator sourceStart rate offset : ℚ) /
    retimeDenominator sourceStart rate offset =
      rate.ratio * offset.seconds / sourceStart.timebase.unit := by
  have h₁ : (offset.timebase.numerator : ℚ) ≠ 0 := by
    exact_mod_cast offset.timebase.numerator_pos.ne'
  have h₂ : (rate.denominator : ℚ) ≠ 0 := by exact_mod_cast rate.denominator_pos.ne'
  have h₃ : (sourceStart.timebase.numerator : ℚ) ≠ 0 := by
    exact_mod_cast sourceStart.timebase.numerator_pos.ne'
  have h₄ : (sourceStart.timebase.denominator : ℚ) ≠ 0 := by
    exact_mod_cast sourceStart.timebase.denominator_pos.ne'
  rw [retimeNumerator, retimeDenominator, RationalTime.seconds, PlaybackRate.ratio, Timebase.unit,
    Timebase.unit]
  push_cast
  field_simp

/-- Twice the remainder a query leaves fits 128 bits, as far as the query gets to a remainder. -/
def RemainderFits (sourceStart : RationalTime) (rate : PlaybackRate) (offset : RationalTime) :
    Prop :=
  rate.isFreeze = false → InI128 (retimeNumerator sourceStart rate offset) →
    InI128 (retimeDenominator sourceStart rate offset) →
      InI128 (((retimeNumerator sourceStart rate offset).tmod
        (retimeDenominator sourceStart rate offset)).natAbs * 2)

theorem sourceTimeAtOffsetMachine_eq
    (hfits : rounding = .nearestTiesEven → RemainderFits sourceStart rate offset) :
    sourceTimeAtOffsetMachine sourceStart rate offset rounding operation =
      Machine.lift (sourceTimeAtOffset sourceStart rate offset rounding operation) := by
  unfold sourceTimeAtOffsetMachine sourceTimeAtOffset
  split
  · rfl
  · rename_i hmoves
    rw [Machine.lift_bind]
    refine Machine.lift_bind_congr fun n₁ hn₁ => ?_
    rw [Machine.lift_bind]
    refine Machine.lift_bind_congr fun n₂ hn₂ => ?_
    rw [Machine.lift_bind]
    refine Machine.lift_bind_congr fun n hn => ?_
    rw [Machine.lift_bind]
    refine Machine.lift_bind_congr fun d₁ hd₁ => ?_
    rw [Machine.lift_bind]
    refine Machine.lift_bind_congr fun d hd => ?_
    rw [okOr_eq_ok] at hn₁ hn₂ hn hd₁ hd
    have hnfits := inI128_of_checkedI128 hn
    have hdfits := inI128_of_checkedI128 hd
    -- the checked products are the fraction
    have hn' : n = retimeNumerator sourceStart rate offset := by
      rw [checkedI128_eq_some hn, checkedI128_eq_some hn₂, checkedI128_eq_some hn₁,
        retimeNumerator]
    have hd' : d = retimeDenominator sourceStart rate offset := by
      rw [checkedI128_eq_some hd, checkedI128_eq_some hd₁, retimeDenominator]
    subst hn' hd'
    rw [divideRetimeMachine_eq hnfits retimeDenominator_pos fun hnearest =>
      hfits hnearest (by simpa using hmoves) hnfits hdfits, Machine.lift_bind]
    refine Machine.lift_bind_congr fun divided _ => ?_
    rw [Machine.lift_bind]
    rfl

/-- Where it does not fit, rounding to the nearest has no outcome. -/
theorem sourceTimeAtOffsetMachine_overflows (hfits : ¬ RemainderFits sourceStart rate offset) :
    sourceTimeAtOffsetMachine sourceStart rate offset .nearestTiesEven operation =
      ExceptT.mk none := by
  simp only [RemainderFits, Classical.not_imp] at hfits
  obtain ⟨hmoves, hn, hd, hdouble⟩ := hfits
  obtain ⟨h₁, -, -⟩ := RationalTime.inI128_product offset.inRange offset.timebase.denominator_fits
    offset.timebase.numerator_fits
  have hsn : (1 : Int) ≤ sourceStart.timebase.numerator := by
    exact_mod_cast sourceStart.timebase.numerator_pos
  have hsd : (1 : Int) ≤ sourceStart.timebase.denominator := by
    exact_mod_cast sourceStart.timebase.denominator_pos
  -- the products on the way are no larger than the last ones
  have h₂ : InI128 (offset.value * offset.timebase.denominator * rate.numerator) :=
    inI128_of_mul hsn hn
  have h₃ : InI128 ((offset.timebase.numerator : Int) * rate.denominator) := inI128_of_mul hsd hd
  unfold retimeNumerator at hn hdouble
  unfold retimeDenominator at hd hdouble
  have hpos := @retimeDenominator_pos sourceStart offset rate
  unfold retimeDenominator at hpos
  simp only [sourceTimeAtOffsetMachine, hmoves, checkedI128_eq h₁, checkedI128_eq h₂,
    checkedI128_eq hn, checkedI128_eq h₃, checkedI128_eq hd, okOr, Machine.lift_ok, pure_bind,
    divideRetimeMachine_overflows hn hpos hdouble]
  rfl

/-- A query that returns has moved by the exact offset, rounded as the policy says. -/
theorem sourceTimeAtOffset_rounds {time : RationalTime} {isExact : Bool}
    (h : sourceTimeAtOffset sourceStart rate offset rounding operation = .ok (time, isExact)) :
    ∃ units : Int, rounding.Rounds (rate.ratio * offset.seconds / sourceStart.timebase.unit) units ∧
      time.value = sourceStart.value + units ∧ time.timebase = sourceStart.timebase := by
  unfold sourceTimeAtOffset at h
  split at h
  · rename_i hfreeze
    cases h
    refine ⟨0, ?_, (add_zero _).symm, rfl⟩
    rw [PlaybackRate.ratio_of_isFreeze hfreeze, zero_mul, zero_div]
    exact rounding.rounds_intCast 0
  · simp only [bind_eq_ok, okOr_eq_ok, pure_eq_ok, Prod.exists, Prod.mk.injEq,
      RationalTime.tryFrom_eq_ok] at h
    obtain ⟨n₁, hn₁, n₂, hn₂, n, hn, d₁, hd₁, d, hd, delta, flag, hdiv, result, ⟨hvalue, htb⟩, rfl,
      rfl⟩ := h
    have hn' : n = retimeNumerator sourceStart rate offset := by
      rw [checkedI128_eq_some hn, checkedI128_eq_some hn₂, checkedI128_eq_some hn₁,
        retimeNumerator]
    have hd' : d = retimeDenominator sourceStart rate offset := by
      rw [checkedI128_eq_some hd, checkedI128_eq_some hd₁, retimeDenominator]
    subst hn' hd'
    have hrounds := divideRetime_rounds retimeDenominator_pos hdiv
    rw [retimeFraction_eq] at hrounds
    exact ⟨delta, hrounds, hvalue, htb⟩

namespace RetimeSegment

variable {segment : RetimeSegment} {recordTime : RationalTime}

/-- The exact source offset of an instant from the start of the section, in source units. -/
def sourceOffset (segment : RetimeSegment) (instant : ℚ) : ℚ :=
  segment.rate.ratio * (instant - segment.lo) / segment.sourceStart.timebase.unit

/-- A source coordinate is the start of the section moved by the exact offset, rounded as the policy
says. -/
def Places (segment : RetimeSegment) (recordTime : RationalTime) (rounding : TimeRounding)
    (time : RationalTime) : Prop :=
  ∃ units : Int, rounding.Rounds (segment.sourceOffset recordTime.seconds) units ∧
    time.value = segment.sourceStart.value + units ∧
    time.timebase = segment.sourceStart.timebase

/-- Twice the remainder of the query fits 128 bits, if the queried instant is a coordinate of the
record clock. -/
def QueryFits (segment : RetimeSegment) (recordTime : RationalTime) : Prop :=
  ∀ offset : RationalTime, offset.timebase = segment.recordRange.timebase →
    offset.seconds = recordTime.seconds - segment.lo →
      RemainderFits segment.sourceStart segment.rate offset

/-- Without an overflow the machine does what the pure query does. -/
theorem sourceTimeAtMachine_eq (hfits : rounding = .nearestTiesEven → segment.QueryFits recordTime) :
    segment.sourceTimeAtMachine recordTime rounding operation =
      Machine.lift (segment.sourceTimeAt recordTime rounding operation) := by
  rw [sourceTimeAtMachine, RationalTime.checkedBinaryAtMachine_eq, sourceTimeAt,
    RationalTime.checkedSubAt, Machine.lift_bind]
  refine Machine.lift_bind_congr fun offset hoffset => ?_
  obtain ⟨htb, hsec⟩ := RationalTime.checkedSubAt_spec hoffset
  exact sourceTimeAtOffsetMachine_eq fun hnearest => hfits hnearest offset htb hsec

theorem sourceTimeAtMachine_overflows (hfits : ¬ segment.QueryFits recordTime) :
    segment.sourceTimeAtMachine recordTime .nearestTiesEven operation = ExceptT.mk none := by
  simp only [QueryFits, not_forall] at hfits
  obtain ⟨offset, htb, hsec, hfits⟩ := hfits
  have hsub := RationalTime.checkedSubAt_complete segment.recordRange.start_timebase htb hsec
  rw [RationalTime.checkedSubAt] at hsub
  rw [sourceTimeAtMachine, RationalTime.checkedBinaryAtMachine_eq, hsub, Machine.lift_ok, pure_bind,
    sourceTimeAtOffsetMachine_overflows hfits]

theorem sourceTimeAt_places {time : RationalTime} {isExact : Bool}
    (h : segment.sourceTimeAt recordTime rounding operation = .ok (time, isExact)) :
    segment.Places recordTime rounding time := by
  obtain ⟨offset, hoffset, hat⟩ := bind_eq_ok.1 h
  obtain ⟨-, hsec⟩ := RationalTime.checkedSubAt_spec hoffset
  obtain ⟨units, hrounds, hvalue, htb⟩ := sourceTimeAtOffset_rounds hat
  rw [hsec] at hrounds
  exact ⟨units, hrounds, hvalue, htb⟩

end RetimeSegment

/-! ## A whole map -/

theorem containsMachine_eq {range : TimeRange} {time : RationalTime} :
    containsMachine range time = pure (range.contains time) := by
  simp only [containsMachine, RationalTime.compareMachine_eq, pure_bind]
  rw [TimeRange.contains, RationalTime.compare_eq_compare_seconds,
    RationalTime.compare_eq_compare_seconds]
  simp only [RationalTime.le_iff_seconds, RationalTime.lt_iff_seconds, compare_lt_iff_lt]
  split
  · rename_i hbefore
    have hno : ¬ (range.start.seconds ≤ time.seconds ∧
        time.seconds < range.endExclusive.seconds) := fun hin => absurd hbefore (not_lt.2 hin.1)
    rw [decide_eq_false hno]
  · rename_i hnot
    simp only [not_lt.1 hnot, true_and]

theorem partitionPointMachine_eq {recordTime : RationalTime} {segments : List RetimeSegment} :
    partitionPointMachine recordTime segments = pure (segments.takeWhile fun segment =>
      decide (segment.recordRange.start ≤ recordTime)).length := by
  induction segments with
  | nil => rfl
  | cons segment rest ih =>
      rw [partitionPointMachine, RationalTime.compareMachine_eq, pure_bind, ih]
      by_cases hafter : segment.recordRange.start.compare recordTime = .gt
      · have hle : ¬ segment.recordRange.start ≤ recordTime := not_not.2 hafter
        rw [if_pos hafter, List.takeWhile_cons_of_neg (by simpa using hle)]
        rfl
      · have hle : segment.recordRange.start ≤ recordTime := hafter
        rw [if_neg hafter, List.takeWhile_cons_of_pos (by simpa using hle), pure_bind]
        rfl

namespace ClipTimeMap

variable {map : ClipTimeMap} {recordTime : RationalTime}

/-- The queried section, as the machine indexes it. -/
theorem segment_getElem? : map.segments[map.segmentIndexAt recordTime]? =
    some (map.segments.get ⟨map.segmentIndexAt recordTime, map.segmentIndexAt_lt recordTime⟩) :=
  List.getElem?_eq_getElem (map.segmentIndexAt_lt recordTime)

/-- The sections that hold the instant answer the query within 128 bits. -/
def QueryFits (map : ClipTimeMap) (recordTime : RationalTime) : Prop :=
  ∀ segment ∈ map.segments, segment.recordRange.contains recordTime = true →
    segment.QueryFits recordTime

theorem sourceTimeAtMachine_eq (hfits : rounding = .nearestTiesEven → map.QueryFits recordTime) :
    map.sourceTimeAtMachine recordTime rounding =
      Machine.lift (map.sourceTimeAt recordTime rounding) := by
  rw [sourceTimeAtMachine, sourceTimeAt, Machine.lift_bind]
  refine Machine.lift_bind_congr fun complete _ => ?_
  rw [containsMachine_eq, pure_bind, Machine.lift_bind]
  refine Machine.lift_bind_congr fun _ _ => ?_
  rw [partitionPointMachine_eq, pure_bind]
  change (match map.segments[map.segmentIndexAt recordTime]? with
    | none => ExceptT.mk none
    | some segment => _) = _
  rw [segment_getElem?]
  simp only
  rw [containsMachine_eq, pure_bind, Machine.lift_bind]
  refine Machine.lift_bind_congr fun _ hcovered => ?_
  rw [rejectIf_eq_ok, Bool.not_eq_false] at hcovered
  rw [RetimeSegment.sourceTimeAtMachine_eq fun hnearest =>
    hfits hnearest _ (List.get_mem _ _) hcovered, Machine.lift_bind]
  rfl

/-! ## Queries reach their section -/

theorem exists_complete (map : ClipTimeMap) : ∃ complete, map.complete = .ok complete ∧
    complete.start.seconds = 0 ∧
      complete.endExclusive.seconds = map.recordDuration.seconds := by
  have hfits : InI64 ((RationalTime.zero map.recordDuration.timebase).value +
      map.recordDuration.value) := by
    have hduration := map.recordDuration.inI64
    rwa [RationalTime.zero, zero_add]
  refine ⟨⟨.zero map.recordDuration.timebase, map.recordDuration, rfl, hfits⟩,
    TimeRange.new_eq_ok.2 ⟨rfl, rfl⟩, RationalTime.seconds_zero _, ?_⟩
  rw [TimeRange.seconds_endExclusive, RationalTime.seconds_zero, zero_add]

/-- The section that holds an instant is the one a query is resolved by. -/
theorem getElem?_segmentIndexAt {segment : RetimeSegment} (hmem : segment ∈ map.segments)
    (hcontains : segment.recordRange.contains recordTime = true) :
    map.segments[map.segmentIndexAt recordTime]? = some segment := by
  have hcov : Covers RetimeSegment.lo RetimeSegment.hi recordTime.seconds segment :=
    TimeRange.contains_iff_seconds.1 hcontains
  obtain ⟨before, after, heq, htake⟩ := hcov.takeWhile_lo map.tiles hmem
  have hpred : (fun segment : RetimeSegment => decide (segment.recordRange.start ≤ recordTime)) =
      fun segment => decide (segment.lo ≤ recordTime.seconds) := by
    funext segment
    exact decide_eq_decide.2 RationalTime.le_iff_seconds
  rw [segmentIndexAt, hpred, htake, heq]
  simp

theorem complete_contains {segment : RetimeSegment} (hmem : segment ∈ map.segments)
    (hcontains : segment.recordRange.contains recordTime = true) {complete : TimeRange}
    (hcomplete : map.complete = .ok complete) : complete.contains recordTime = true := by
  have hcov := TimeRange.contains_iff_seconds.1 hcontains
  obtain ⟨complete', hcomplete', hstart, hend⟩ := map.exists_complete
  cases hcomplete.symm.trans hcomplete'
  have hbounds := map.tiles.mem_bounds hmem
  rw [RetimeSegment.lo, RetimeSegment.hi] at hbounds
  rw [TimeRange.contains_iff_seconds, hstart, hend]
  exact ⟨le_trans hbounds.1 hcov.1, lt_of_lt_of_le hcov.2 hbounds.2.2⟩

theorem sourceTimeAtMachine_overflows (hfits : ¬ map.QueryFits recordTime) :
    map.sourceTimeAtMachine recordTime .nearestTiesEven = ExceptT.mk none := by
  simp only [QueryFits, not_forall] at hfits
  obtain ⟨segment, hmem, hcontains, hfits⟩ := hfits
  obtain ⟨complete, hcomplete, -⟩ := map.exists_complete
  have hinside := complete_contains hmem hcontains hcomplete
  have hindex := getElem?_segmentIndexAt hmem hcontains
  rw [segmentIndexAt] at hindex
  rw [sourceTimeAtMachine, hcomplete, Machine.lift_ok, pure_bind, containsMachine_eq, pure_bind,
    hinside, rejectIf, if_neg (by simp), Machine.lift_ok, pure_bind, partitionPointMachine_eq,
    pure_bind, hindex]
  simp only
  rw [containsMachine_eq, pure_bind, hcontains, rejectIf, if_neg (by simp), Machine.lift_ok,
    pure_bind, RetimeSegment.sourceTimeAtMachine_overflows hfits]
  rfl

/-- What a query returns is placed by the section it names, which holds the queried instant. -/
theorem sourceTimeAt_places {mapped : MappedSourceTime}
    (h : map.sourceTimeAt recordTime rounding = .ok mapped) :
    ∃ segment, map.segments[mapped.segmentIndex]? = some segment ∧
      segment.recordRange.contains recordTime = true ∧
      segment.Places recordTime rounding mapped.time := by
  simp only [sourceTimeAt, bind_eq_ok, rejectIf_eq_ok, pure_eq_ok, Prod.exists,
    Bool.not_eq_false] at h
  obtain ⟨complete, -, _, -, _, hcontains, time, isExact, hseg, rfl⟩ := h
  exact ⟨_, segment_getElem?, hcontains, RetimeSegment.sourceTimeAt_places hseg⟩

end ClipTimeMap

/-! ## The contract -/

/-- The query of a section computes without overflowing, and what it returns is the exact source
coordinate rounded as the policy says. -/
def RetimeSegment.Exact (segment : RetimeSegment) (recordTime : RationalTime)
    (rounding : TimeRounding) (operation : String) : Prop :=
  ∃ outcome, (segment.sourceTimeAtMachine recordTime rounding operation).Yields outcome ∧
    ∀ time isExact, outcome = .ok (time, isExact) → segment.Places recordTime rounding time

/-- The same of the query of a whole map, by the section that holds the instant. -/
def ClipTimeMap.Exact (map : ClipTimeMap) (recordTime : RationalTime) (rounding : TimeRounding) :
    Prop :=
  ∃ outcome, (map.sourceTimeAtMachine recordTime rounding).Yields outcome ∧
    ∀ mapped : MappedSourceTime, outcome = .ok mapped →
      ∃ segment, map.segments[mapped.segmentIndex]? = some segment ∧
        segment.recordRange.contains recordTime = true ∧
        segment.Places recordTime rounding mapped.time

theorem not_yields_none {α : Type} {x : Machine α} (hnone : x = ExceptT.mk none)
    (outcome : Except Error α) : ¬ x.Yields outcome := by
  subst hnone
  intro h
  cases h

/-- Every query of every section and every map is exact, except rounding to the nearest where twice
the remainder of the exact source offset does not fit 128 bits. -/
theorem retime_exact_iff (rounding : TimeRounding) (recordTime : RationalTime) :
    (∀ (segment : RetimeSegment) (operation : String),
      segment.Exact recordTime rounding operation ↔
        (rounding = .nearestTiesEven → segment.QueryFits recordTime)) ∧
    ∀ map : ClipTimeMap, map.Exact recordTime rounding ↔
      (rounding = .nearestTiesEven → map.QueryFits recordTime) := by
  refine ⟨fun segment operation => ⟨?_, fun hfits => ?_⟩, fun map => ⟨?_, fun hfits => ?_⟩⟩
  · rintro ⟨outcome, hyields, -⟩ rfl
    by_contra hfits
    exact not_yields_none (RetimeSegment.sourceTimeAtMachine_overflows hfits) outcome hyields
  · refine ⟨segment.sourceTimeAt recordTime rounding operation, ?_,
      fun time isExact h => RetimeSegment.sourceTimeAt_places h⟩
    rw [RetimeSegment.sourceTimeAtMachine_eq hfits]
    exact Machine.yields_lift _
  · rintro ⟨outcome, hyields, -⟩ rfl
    by_contra hfits
    exact not_yields_none (ClipTimeMap.sourceTimeAtMachine_overflows hfits) outcome hyields
  · refine ⟨map.sourceTimeAt recordTime rounding, ?_,
      fun mapped h => ClipTimeMap.sourceTimeAt_places h⟩
    rw [ClipTimeMap.sourceTimeAtMachine_eq hfits]
    exact Machine.yields_lift _

/-! ## A query that overflows -/

/-- Almost the fastest clocks, and a section that moves one source unit in `2^63 - 1` record
units. -/
def slowestSegment : RetimeSegment where
  recordRange :=
    { start := .zero (.integer 4294967295 (by decide) (by decide))
      duration := ⟨9223372036854775807, .integer 4294967295 (by decide) (by decide), by decide⟩
      oneTimebase := rfl
      endFits := by decide }
  sourceStart := .zero ⟨4294967295, 4294967294, by decide, by decide, by decide, by decide, by decide⟩
  rate := ⟨4294967294, 9223372036854775807, by decide, by decide, by decide, by decide⟩
  nonempty := by decide
  nonnegative := by decide
  lands := by decide

def slowestMap : ClipTimeMap where
  recordDuration := slowestSegment.recordRange.duration
  sourceTimebase := slowestSegment.sourceStart.timebase
  segments := [slowestSegment]
  durationNonzero := by decide
  nonempty := by decide
  checked := by decide

/-- One record unit before its end the remainder of the slowest map does not double. -/
theorem slowest_query_overflows : ¬ slowestMap.Exact
    ⟨9223372036854775806, slowestSegment.recordRange.timebase, by decide⟩ .nearestTiesEven := by
  rintro ⟨outcome, hyields, -⟩
  have hlo : slowestSegment.lo = 0 := RationalTime.seconds_zero _
  refine not_yields_none (ClipTimeMap.sourceTimeAtMachine_overflows fun hfits => ?_) outcome hyields
  have hremainder := hfits slowestSegment List.mem_cons_self (by decide)
    ⟨9223372036854775806, slowestSegment.recordRange.timebase, by decide⟩ rfl
    (by rw [hlo, sub_zero])
  revert hremainder
  unfold RemainderFits
  decide

end Editorial
end Superi

import Superi.Timeline.RetimeExact

/-!
# RetimeSlices — what a sliced time map selects

A slice rebases the start of the section it cuts to the source coordinate at the cut, and rounding
is applied to the offset from that start.  Every policy commutes with the move except rounding to
the nearest, which sends a tie to an even offset: where the start moves by an odd number of source
units, the slice sends the tie to the other neighbour.
-/

namespace Superi
namespace Core

open Rounding

/-! ## Moving a rounding -/

variable {rounding : TimeRounding} {q : ℚ} {v k : Int}

/-- A rounding stays between integers that enclose the value. -/
theorem TimeRounding.Rounds.between {a b : Int} (h : rounding.Rounds q v) (ha : (a : ℚ) ≤ q)
    (hb : q ≤ b) : a ≤ v ∧ v ≤ b := by
  -- the rounding is less than one away from the value, and on the far side only by a half
  have hfloor : IsFloor q v → a ≤ v ∧ v ≤ b := by
    rintro ⟨hle, hlt⟩
    have h₁ : (a : ℚ) < v + 1 := lt_of_le_of_lt ha hlt
    have h₂ : (v : ℚ) ≤ b := le_trans hle hb
    have h₁' : a < v + 1 := by exact_mod_cast h₁
    exact ⟨by omega, by exact_mod_cast h₂⟩
  have hceil : IsCeil q v → a ≤ v ∧ v ≤ b := by
    rintro ⟨hlt, hle⟩
    have h₁ : (a : ℚ) ≤ v := le_trans ha hle
    have h₂ : (v : ℚ) - 1 < b := lt_of_lt_of_le hlt hb
    have h₂' : v - 1 < b := by exact_mod_cast h₂
    exact ⟨by exact_mod_cast h₁, by omega⟩
  cases rounding with
  | exact =>
      have hq : (v : ℚ) = q := h
      rw [← hq] at ha hb
      exact ⟨by exact_mod_cast ha, by exact_mod_cast hb⟩
  | floor => exact hfloor h
  | ceil => exact hceil h
  | towardZero =>
      rcases le_total 0 q with hq | hq
      · exact hfloor ((truncates_iff_of_nonneg hq).1 h)
      · exact hceil ((truncates_iff_of_nonpos hq).1 h)
  | nearestTiesEven =>
      obtain ⟨hlow, hhigh⟩ := abs_le.1 (NearestEven.dist_le h)
      have h₁ : (a : ℚ) < v + 1 := by linarith
      have h₂ : (v : ℚ) - 1 < b := by linarith
      have h₁' : a < v + 1 := by exact_mod_cast h₁
      have h₂' : v - 1 < b := by exact_mod_cast h₂
      exact ⟨by omega, by omega⟩

/-- Moving the value by an integer moves the rounding with it, as long as the move does not cross
zero and is even or meets no tie. -/
theorem TimeRounding.rounds_add (hside : 0 ≤ q ∧ 0 ≤ q + k ∨ q ≤ 0 ∧ q + k ≤ 0)
    (htie : rounding = .nearestTiesEven → Even k ∨ ∀ v : Int, |q - v| ≠ 1 / 2) :
    rounding.Rounds (q + k) (v + k) ↔ rounding.Rounds q v := by
  cases rounding with
  | exact =>
      change ((v + k : Int) : ℚ) = q + k ↔ (v : ℚ) = q
      push_cast
      exact add_left_inj _
  | floor => exact isFloor_add
  | ceil => exact isCeil_add
  | towardZero =>
      change Truncates _ _ ↔ Truncates _ _
      rcases hside with ⟨h₁, h₂⟩ | ⟨h₁, h₂⟩
      · rw [truncates_iff_of_nonneg h₁, truncates_iff_of_nonneg h₂, isFloor_add]
      · rw [truncates_iff_of_nonpos h₁, truncates_iff_of_nonpos h₂, isCeil_add]
  | nearestTiesEven => exact nearestEven_add (htie rfl)

end Core

namespace Editorial

open Core Result Rounding Tiling

/-! ## Queries that lie in their section -/

variable {numerator denominator : Int} {rounding : TimeRounding} {operation : String}

/-- A rounding that the policy allows and `i64` holds is returned. -/
theorem divideRetime_complete (hd : 0 < denominator) {value : Int}
    (hrounds : rounding.Rounds (numerator / denominator) value) (hfits : InI64 value) :
    ∃ isExact, divideRetime numerator denominator rounding operation = .ok (value, isExact) := by
  rw [divideRetime_eq]
  split
  · rename_i hrest
    have hself : rounding.Rounds (numerator / denominator) (numerator.tdiv denominator) := by
      rw [← (eq_div_iff_tmod hd).2 ⟨hrest, rfl⟩]
      exact rounding.rounds_intCast _
    rw [hrounds.unique hself] at hfits
    exact ⟨true, fitRetime_eq_ok.2 ⟨hfits, by rw [hrounds.unique hself]⟩⟩
  · rename_i hrest
    cases hrounded : roundQuotient numerator denominator (numerator.tdiv denominator)
        (numerator.tmod denominator) rounding (inexactRetime operation) with
    | ok rounded =>
        have hself := roundQuotient_rounds hd hrounded
        rw [hrounds.unique hself] at hfits
        exact ⟨false, fitRetime_eq_ok.2 ⟨hfits, by rw [hrounds.unique hself]⟩⟩
    | error error =>
        -- only the exact policy refuses, and it has no rounding here
        cases rounding with
        | exact => exact absurd ((eq_div_iff_tmod hd).1 hrounds).1 hrest
        | floor => cases hrounded
        | ceil => cases hrounded
        | towardZero => cases hrounded
        | nearestTiesEven => cases hrounded

theorem divideRetime_inI64 {value : Int} {isExact : Bool}
    (h : divideRetime numerator denominator rounding operation = .ok (value, isExact)) :
    InI64 value := by
  rw [divideRetime_eq] at h
  split at h
  · obtain ⟨hfits, heq⟩ := fitRetime_eq_ok.1 h
    cases heq
    exact hfits
  · obtain ⟨rounded, -, hfit⟩ := bind_eq_ok.1 h
    obtain ⟨hfits, heq⟩ := fitRetime_eq_ok.1 hfit
    cases heq
    exact hfits

/-- A product fits where it does for a larger first factor. -/
theorem inI128_mul_of_le {a b c : Int} (ha : 0 ≤ a) (hab : a ≤ b) (h : InI128 (b * c)) :
    InI128 (a * c) := by
  rw [inI128_iff] at h ⊢
  rcases le_total 0 c with hc | hc
  · have h₁ : 0 ≤ a * c := mul_nonneg ha hc
    have h₂ : a * c ≤ b * c := mul_le_mul_of_nonneg_right hab hc
    omega
  · have h₁ : a * c ≤ 0 := mul_nonpos_of_nonneg_of_nonpos ha hc
    have h₂ : b * c ≤ a * c := mul_le_mul_of_nonpos_right hab hc
    omega

variable {sourceStart offset last : RationalTime} {rate : PlaybackRate}

/-- The arithmetic of a section that moves fits up to the offset `last`, where it lands on a
coordinate of the source clock. -/
structure Lands (sourceStart : RationalTime) (rate : PlaybackRate) (last : RationalTime)
    (landing : Int) : Prop where
  first : InI128 (last.value * last.timebase.denominator)
  second : InI128 (last.value * last.timebase.denominator * rate.numerator)
  numerator : InI128 (retimeNumerator sourceStart rate last)
  scale : InI128 ((last.timebase.numerator : Int) * rate.denominator)
  denominator : InI128 (retimeDenominator sourceStart rate last)
  arrives : rate.ratio * last.seconds / sourceStart.timebase.unit = landing
  delta : InI64 landing
  reached : InI64 (sourceStart.value + landing)

theorem exists_lands (hmoves : rate.isFreeze = false) (h :
    (sourceTimeAtOffset sourceStart rate last .exact operation).isOk = true) :
    ∃ landing, Lands sourceStart rate last landing := by
  cases hresult : sourceTimeAtOffset sourceStart rate last .exact operation with
  | error error =>
      rw [hresult] at h
      cases h
  | ok result =>
      obtain ⟨time, isExact⟩ := result
      simp only [sourceTimeAtOffset, hmoves, Bool.false_eq_true, if_false, bind_eq_ok, okOr_eq_ok,
        pure_eq_ok, Prod.exists, Prod.mk.injEq, RationalTime.tryFrom_eq_ok] at hresult
      obtain ⟨n₁, hn₁, n₂, hn₂, n, hn, d₁, hd₁, d, hd, delta, flag, hdiv, result, ⟨hvalue, -⟩, -⟩ :=
        hresult
      have hfits₁ := inI128_of_checkedI128 hn₁
      have hfits₂ := inI128_of_checkedI128 hn₂
      have hfits₃ := inI128_of_checkedI128 hn
      have hfits₄ := inI128_of_checkedI128 hd₁
      have hfits₅ := inI128_of_checkedI128 hd
      rw [checkedI128_eq_some hn₁] at hfits₁
      rw [checkedI128_eq_some hn₂, checkedI128_eq_some hn₁] at hfits₂
      rw [checkedI128_eq_some hd₁] at hfits₄
      have hn' : n = retimeNumerator sourceStart rate last := by
        rw [checkedI128_eq_some hn, checkedI128_eq_some hn₂, checkedI128_eq_some hn₁,
          retimeNumerator]
      have hd' : d = retimeDenominator sourceStart rate last := by
        rw [checkedI128_eq_some hd, checkedI128_eq_some hd₁, retimeDenominator]
      subst hn' hd'
      have hrounds : ((delta : Int) : ℚ) = _ := divideRetime_rounds retimeDenominator_pos hdiv
      rw [retimeFraction_eq] at hrounds
      have hreached := result.inRange
      rw [hvalue] at hreached
      exact ⟨delta, hfits₁, hfits₂, hfits₃, hfits₄, hfits₅, hrounds.symm, divideRetime_inI64 hdiv,
        hreached⟩

namespace Lands

variable {landing : Int}

/-- The fraction of an earlier offset fits too. -/
theorem fits_of_le (lands : Lands sourceStart rate last landing)
    (htb : offset.timebase = last.timebase) (hpos : 0 ≤ offset.value)
    (hle : offset.value ≤ last.value) :
    InI128 (offset.value * offset.timebase.denominator) ∧
      InI128 (offset.value * offset.timebase.denominator * rate.numerator) ∧
      InI128 (retimeNumerator sourceStart rate offset) ∧
      InI128 ((offset.timebase.numerator : Int) * rate.denominator) ∧
      InI128 (retimeDenominator sourceStart rate offset) := by
  have h₁ := lands.first
  have h₂ := lands.second
  have h₃ := lands.numerator
  rw [mul_assoc] at h₂
  rw [retimeNumerator, mul_assoc, mul_assoc] at h₃
  rw [retimeNumerator, retimeDenominator, htb, mul_assoc, mul_assoc, mul_assoc]
  refine ⟨inI128_mul_of_le hpos hle h₁, inI128_mul_of_le hpos hle h₂, inI128_mul_of_le hpos hle h₃,
    lands.scale, lands.denominator⟩

/-- An earlier offset is rounded between the start and the landing. -/
theorem inI64_of_le (lands : Lands sourceStart rate last landing)
    (htb : offset.timebase = last.timebase) (hpos : 0 ≤ offset.value)
    (hle : offset.value ≤ last.value) {units : Int}
    (hrounds : rounding.Rounds (rate.ratio * offset.seconds / sourceStart.timebase.unit) units) :
    InI64 units ∧ InI64 (sourceStart.value + units) := by
  have hunit := sourceStart.timebase.unit_pos
  have hstart : 0 ≤ offset.seconds :=
    mul_nonneg (by exact_mod_cast hpos) offset.timebase.unit_pos.le
  have hend : offset.seconds ≤ last.seconds := (RationalTime.value_le_iff_seconds htb).1 hle
  have hdelta := lands.delta
  have hreached := lands.reached
  have hsource := sourceStart.inRange
  rw [inI64_iff] at hdelta hreached hsource ⊢
  rw [inI64_iff]
  rcases le_total 0 rate.ratio with hforward | hbackward
  · have hlow : ((0 : Int) : ℚ) ≤ rate.ratio * offset.seconds / sourceStart.timebase.unit := by
      rw [Int.cast_zero]
      positivity
    have hhigh : rate.ratio * offset.seconds / sourceStart.timebase.unit ≤ landing := by
      rw [← lands.arrives]
      gcongr
    obtain ⟨h₁, h₂⟩ := hrounds.between hlow hhigh
    omega
  · have hhigh : rate.ratio * offset.seconds / sourceStart.timebase.unit ≤ ((0 : Int) : ℚ) := by
      rw [Int.cast_zero]
      exact div_nonpos_of_nonpos_of_nonneg (mul_nonpos_of_nonpos_of_nonneg hbackward hstart) hunit.le
    have hlow : (landing : ℚ) ≤ rate.ratio * offset.seconds / sourceStart.timebase.unit := by
      rw [← lands.arrives]
      exact div_le_div_of_nonneg_right (mul_le_mul_of_nonpos_left hend hbackward) hunit.le
    obtain ⟨h₁, h₂⟩ := hrounds.between hlow hhigh
    omega

end Lands

/-- Before the landing every query that the policy can answer is answered. -/
theorem sourceTimeAtOffset_complete (hlands : (sourceTimeAtOffset sourceStart rate last .exact
      "create_retime_segment").isOk = true)
    (htb : offset.timebase = last.timebase) (hpos : 0 ≤ offset.value)
    (hle : offset.value ≤ last.value) {time : RationalTime} {units : Int}
    (hrounds : rounding.Rounds (rate.ratio * offset.seconds / sourceStart.timebase.unit) units)
    (hvalue : time.value = sourceStart.value + units)
    (hclock : time.timebase = sourceStart.timebase) :
    ∃ isExact, sourceTimeAtOffset sourceStart rate offset rounding operation =
      .ok (time, isExact) := by
  cases hmoves : rate.isFreeze with
  | true =>
      have hzero : units = 0 := by
        rw [PlaybackRate.ratio_of_isFreeze hmoves, zero_mul, zero_div] at hrounds
        exact hrounds.unique (rounding.rounds_intCast 0)
      have hself : time = sourceStart := by
        refine RationalTime.ext_of_seconds hclock ?_
        rw [RationalTime.seconds_of_timebase_eq hclock, hvalue, hzero, add_zero,
          RationalTime.seconds]
      refine ⟨true, ?_⟩
      rw [sourceTimeAtOffset, hmoves, if_pos rfl, hself]
  | false =>
      obtain ⟨landing, lands⟩ := exists_lands hmoves hlands
      obtain ⟨h₁, h₂, h₃, h₄, h₅⟩ := lands.fits_of_le htb hpos hle
      obtain ⟨hdelta, hreached⟩ := lands.inI64_of_le htb hpos hle hrounds
      rw [← retimeFraction_eq] at hrounds
      obtain ⟨isExact, hdiv⟩ :=
        @divideRetime_complete _ _ _ operation retimeDenominator_pos _ hrounds hdelta
      refine ⟨isExact, ?_⟩
      rw [retimeNumerator] at h₃ hdiv
      rw [retimeDenominator] at h₅ hdiv
      simp only [sourceTimeAtOffset, hmoves, Bool.false_eq_true, if_false, bind_eq_ok, okOr_eq_ok,
        pure_eq_ok, Prod.exists, Prod.mk.injEq, RationalTime.tryFrom_eq_ok]
      exact ⟨_, checkedI128_eq h₁, _, checkedI128_eq h₂, _, checkedI128_eq h₃, _, checkedI128_eq h₄, _,
        checkedI128_eq h₅, units, isExact, hdiv, time, ⟨hvalue, hclock⟩, rfl, rfl⟩

namespace RetimeSegment

variable {segment : RetimeSegment} {recordTime : RationalTime}

/-- The instant is a coordinate of the record clock. -/
def OnClock (segment : RetimeSegment) (recordTime : RationalTime) : Prop :=
  ∃ offset : RationalTime, offset.timebase = segment.recordRange.timebase ∧
    offset.seconds = recordTime.seconds - segment.lo

/-- The offset of an instant inside the section lies between zero and the section's duration. -/
theorem offset_bounds (hcontains : segment.recordRange.contains recordTime = true)
    {offset : RationalTime} (htb : offset.timebase = segment.recordRange.timebase)
    (hsec : offset.seconds = recordTime.seconds - segment.lo) :
    offset.timebase = segment.recordRange.duration.rationalTime.timebase ∧ 0 ≤ offset.value ∧
      offset.value ≤ segment.recordRange.duration.rationalTime.value := by
  obtain ⟨hlow, hhigh⟩ := TimeRange.contains_iff_seconds.1 hcontains
  rw [TimeRange.seconds_endExclusive] at hhigh
  have hclock : offset.timebase = segment.recordRange.duration.rationalTime.timebase := by
    rw [htb, Duration.rationalTime_timebase, TimeRange.duration_timebase]
  refine ⟨hclock, ?_, (RationalTime.value_le_iff_seconds hclock).2 ?_⟩
  · have hstart : (RationalTime.zero offset.timebase).timebase = offset.timebase := rfl
    have hzero : (RationalTime.zero offset.timebase).value ≤ offset.value := by
      refine (RationalTime.value_le_iff_seconds hstart).2 ?_
      rw [RationalTime.seconds_zero, hsec, lo]
      linarith
    exact hzero
  · rw [hsec, Duration.seconds_rationalTime, lo]
    linarith

/-- Inside the section no instant is too far from its start to be a coordinate. -/
theorem onClock_iff_units (hcontains : segment.recordRange.contains recordTime = true) :
    segment.OnClock recordTime ↔
      ∃ units : Int, units * segment.recordRange.timebase.unit = recordTime.seconds - segment.lo := by
  constructor
  · rintro ⟨offset, htb, hsec⟩
    exact ⟨offset.value, by rw [← hsec, RationalTime.seconds_of_timebase_eq htb]⟩
  · rintro ⟨units, hunits⟩
    obtain ⟨hlow, hhigh⟩ := TimeRange.contains_iff_seconds.1 hcontains
    have hpos := segment.recordRange.timebase.unit_pos
    rw [TimeRange.seconds_endExclusive, Duration.seconds_eq_units, TimeRange.duration_timebase]
      at hhigh
    have hstart : 0 ≤ (units : ℚ) := by
      refine nonneg_of_mul_nonneg_left ?_ hpos
      rw [hunits, lo]
      linarith
    have hend : (units : ℚ) ≤ (segment.recordRange.duration.value : Int) := by
      refine le_of_mul_le_mul_right ?_ hpos
      rw [hunits, lo]
      linarith
    have hstart' : 0 ≤ units := by exact_mod_cast hstart
    have hend' : units ≤ (segment.recordRange.duration.value : Int) := by exact_mod_cast hend
    have hfits := segment.recordRange.duration.inI64
    rw [inI64_iff] at hfits
    exact ⟨⟨units, segment.recordRange.timebase, inI64_iff.2 (by omega)⟩, rfl, hunits⟩

/-- Inside the section only the doubling of the remainder can overflow. -/
theorem remainderFits_iff (hcontains : segment.recordRange.contains recordTime = true)
    {offset : RationalTime} (htb : offset.timebase = segment.recordRange.timebase)
    (hsec : offset.seconds = recordTime.seconds - segment.lo) :
    RemainderFits segment.sourceStart segment.rate offset ↔ (segment.rate.isFreeze = false →
      InI128 (((retimeNumerator segment.sourceStart segment.rate offset).tmod
        (retimeDenominator segment.sourceStart segment.rate offset)).natAbs * 2)) := by
  constructor
  · intro h hmoves
    obtain ⟨hlast, hpos, hle⟩ := offset_bounds hcontains htb hsec
    obtain ⟨landing, lands⟩ := exists_lands hmoves segment.lands
    obtain ⟨-, -, hn, -, hd⟩ := lands.fits_of_le hlast hpos hle
    exact h hmoves hn hd
  · intro h hmoves _ _
    exact h hmoves

/-- A query inside the section returns what the policy places it at, if the instant is a
coordinate of the record clock. -/
theorem sourceTimeAt_iff (hcontains : segment.recordRange.contains recordTime = true)
    {time : RationalTime} :
    (∃ isExact, segment.sourceTimeAt recordTime rounding operation = .ok (time, isExact)) ↔
      segment.OnClock recordTime ∧ segment.Places recordTime rounding time := by
  constructor
  · rintro ⟨isExact, hat⟩
    refine ⟨?_, sourceTimeAt_places hat⟩
    obtain ⟨offset, hoffset, -⟩ := bind_eq_ok.1 hat
    exact ⟨offset, RationalTime.checkedSubAt_spec hoffset⟩
  · rintro ⟨⟨offset, htb, hsec⟩, units, hrounds, hvalue, hclock⟩
    obtain ⟨hlast, hpos, hle⟩ := offset_bounds hcontains htb hsec
    rw [sourceOffset, ← hsec] at hrounds
    obtain ⟨isExact, hat⟩ := @sourceTimeAtOffset_complete _ operation _ _ _ _ segment.lands hlast
      hpos hle _ _ hrounds hvalue hclock
    refine ⟨isExact, ?_⟩
    rw [sourceTimeAt,
      RationalTime.checkedSubAt_complete segment.recordRange.start_timebase htb hsec]
    exact hat

end RetimeSegment

/-! ## What a query selects -/

/-- The source coordinate a query selects; an error and an overflow select none. -/
def selected (query : Machine MappedSourceTime) : Option RationalTime :=
  match query.run with
  | some (.ok mapped) => some mapped.time
  | _ => none

theorem selected_lift {query : Except Error MappedSourceTime} {time : RationalTime} :
    selected (Machine.lift query) = some time ↔
      ∃ mapped, query = .ok mapped ∧ mapped.time = time := by
  cases query with
  | error error =>
      constructor
      · intro h
        cases h
      · rintro ⟨mapped, h, -⟩
        cases h
  | ok mapped =>
      constructor
      · intro h
        cases h
        exact ⟨mapped, rfl, rfl⟩
      · rintro ⟨_, h, rfl⟩
        cases h
        rfl

namespace ClipTimeMap

variable {map : ClipTimeMap} {segment : RetimeSegment} {recordTime time : RationalTime}

theorem sourceTimeAt_iff (hmem : segment ∈ map.segments)
    (hcontains : segment.recordRange.contains recordTime = true) :
    (∃ mapped, map.sourceTimeAt recordTime rounding = .ok mapped ∧ mapped.time = time) ↔
      segment.OnClock recordTime ∧ segment.Places recordTime rounding time := by
  have hindex := (segment_getElem?).symm.trans (getElem?_segmentIndexAt hmem hcontains)
  have hsegment := Option.some.inj hindex
  obtain ⟨complete, hcomplete, -⟩ := map.exists_complete
  have hinside := complete_contains hmem hcontains hcomplete
  rw [← @RetimeSegment.sourceTimeAt_iff _ "resolve_retime_source" _ _ hcontains]
  simp only [sourceTimeAt, hcomplete, hinside, hsegment, hcontains, bind_eq_ok, rejectIf_eq_ok,
    pure_eq_ok, Prod.exists, Except.ok.injEq, exists_eq_left']
  constructor
  · rintro ⟨mapped, ⟨_, -, _, -, time', isExact, hat, rfl⟩, rfl⟩
    exact ⟨isExact, hat⟩
  · rintro ⟨isExact, hat⟩
    exact ⟨_, ⟨(), by simp, (), by simp, time, isExact, hat, rfl⟩, rfl⟩

/-- A query inside a section selects what the section places it at, unless it overflows or the
instant is no coordinate of the record clock. -/
theorem selected_eq_some (hmem : segment ∈ map.segments)
    (hcontains : segment.recordRange.contains recordTime = true) :
    selected (map.sourceTimeAtMachine recordTime rounding) = some time ↔
      (rounding = .nearestTiesEven → segment.QueryFits recordTime) ∧
        segment.OnClock recordTime ∧ segment.Places recordTime rounding time := by
  have hfits : map.QueryFits recordTime ↔ segment.QueryFits recordTime := by
    constructor
    · intro h
      exact h segment hmem hcontains
    · intro h other hother hcovers
      have hsame : other = segment := map.tiles.covers_unique hother hmem
        (TimeRange.contains_iff_seconds.1 hcovers) (TimeRange.contains_iff_seconds.1 hcontains)
      rwa [hsame]
  by_cases hquery : rounding = .nearestTiesEven → segment.QueryFits recordTime
  · rw [sourceTimeAtMachine_eq fun hnearest => hfits.2 (hquery hnearest), selected_lift,
      sourceTimeAt_iff hmem hcontains]
    exact (and_iff_right hquery).symm
  · obtain ⟨rfl, hover⟩ := Classical.not_imp.1 hquery
    rw [sourceTimeAtMachine_overflows fun h => hover (hfits.1 h)]
    constructor
    · intro h
      cases h
    · rintro ⟨h, -⟩
      exact absurd h hquery

end ClipTimeMap

/-! ## A section and its slice -/

namespace RetimeSegment

variable {segment sliced : RetimeSegment} {recordTime shifted : RationalTime} {k : Int}

/-- What slicing makes of a section whose cut lies `k` source units after its start. -/
structure SliceOf (segment sliced : RetimeSegment) (shift : ℚ) (k : Int) : Prop where
  rate : sliced.rate = segment.rate
  recordClock : sliced.recordRange.timebase = segment.recordRange.timebase
  sourceClock : sliced.sourceStart.timebase = segment.sourceStart.timebase
  after : segment.lo ≤ sliced.lo + shift
  moved : segment.sourceOffset (sliced.lo + shift) = k
  start : sliced.sourceStart.value = segment.sourceStart.value + k
  /-- The cut is a coordinate of the record clock. -/
  onClock : ∃ units : Int,
    units * segment.recordRange.timebase.unit = sliced.lo + shift - segment.lo

namespace SliceOf

variable {shift : ℚ}

/-- The exact offsets from the two starts differ by the move of the start. -/
theorem sourceOffset_eq (slice : SliceOf segment sliced shift k) (instant : ℚ) :
    sliced.sourceOffset instant + k = segment.sourceOffset (instant + shift) := by
  rw [← slice.moved, sourceOffset, sourceOffset, sourceOffset, slice.rate, slice.sourceClock,
    ← add_div, ← mul_add]
  congr 2
  ring

/-- Neither offset crosses the zero of the other. -/
theorem same_side (slice : SliceOf segment sliced shift k) {instant : ℚ} (hin : sliced.lo ≤ instant) :
    0 ≤ sliced.sourceOffset instant ∧ 0 ≤ sliced.sourceOffset instant + k ∨
      sliced.sourceOffset instant ≤ 0 ∧ sliced.sourceOffset instant + k ≤ 0 := by
  have hunit₁ := sliced.sourceStart.timebase.unit_pos
  have hunit₂ := segment.sourceStart.timebase.unit_pos
  have hafter := slice.after
  have h₁ : 0 ≤ instant - sliced.lo := by linarith
  have h₂ : 0 ≤ instant + shift - segment.lo := by linarith
  rw [slice.sourceOffset_eq, sourceOffset, sourceOffset, slice.rate]
  rcases le_total 0 segment.rate.ratio with hforward | hbackward
  · left
    constructor <;> positivity
  · right
    exact ⟨div_nonpos_of_nonpos_of_nonneg (mul_nonpos_of_nonpos_of_nonneg hbackward h₁) hunit₁.le,
      div_nonpos_of_nonpos_of_nonneg (mul_nonpos_of_nonpos_of_nonneg hbackward h₂) hunit₂.le⟩

/-- The slice places an instant where the section does, unless the start moves by an odd number of
units and rounding to the nearest meets a tie. -/
theorem places_iff (slice : SliceOf segment sliced shift k) (hin : sliced.lo ≤ shifted.seconds)
    (hshift : recordTime.seconds = shifted.seconds + shift)
    (htie : rounding = .nearestTiesEven →
      Even k ∨ ∀ v : Int, |sliced.sourceOffset shifted.seconds - v| ≠ 1 / 2)
    {time : RationalTime} :
    sliced.Places shifted rounding time ↔ segment.Places recordTime rounding time := by
  have hmove := slice.sourceOffset_eq shifted.seconds
  rw [← hshift] at hmove
  have hrounds := fun units : Int =>
    TimeRounding.rounds_add (v := units) (slice.same_side hin) htie
  rw [hmove] at hrounds
  rw [Places, Places, slice.start, slice.sourceClock]
  constructor
  · rintro ⟨units, hunits, hvalue, hclock⟩
    exact ⟨units + k, (hrounds units).2 hunits, by omega, hclock⟩
  · rintro ⟨units, hunits, hvalue, hclock⟩
    refine ⟨units - k, (hrounds (units - k)).1 ?_, by omega, hclock⟩
    rwa [sub_add_cancel]

theorem onClock_iff (slice : SliceOf segment sliced shift k)
    (hcontains : segment.recordRange.contains recordTime = true)
    (hsliced : sliced.recordRange.contains shifted = true)
    (hshift : recordTime.seconds = shifted.seconds + shift) :
    sliced.OnClock shifted ↔ segment.OnClock recordTime := by
  obtain ⟨cut, hcut⟩ := slice.onClock
  rw [onClock_iff_units hcontains, onClock_iff_units hsliced, slice.recordClock]
  constructor
  · rintro ⟨units, hunits⟩
    refine ⟨units + cut, ?_⟩
    push_cast
    linarith
  · rintro ⟨units, hunits⟩
    refine ⟨units - cut, ?_⟩
    push_cast
    linarith

/-- The two queries leave the same remainder. -/
theorem remainder_eq (slice : SliceOf segment sliced shift k) (hin : sliced.lo ≤ shifted.seconds)
    (hshift : recordTime.seconds = shifted.seconds + shift) {offset offset' : RationalTime}
    (htb : offset.timebase = segment.recordRange.timebase)
    (hsec : offset.seconds = recordTime.seconds - segment.lo)
    (htb' : offset'.timebase = sliced.recordRange.timebase)
    (hsec' : offset'.seconds = shifted.seconds - sliced.lo) :
    (retimeNumerator sliced.sourceStart sliced.rate offset').tmod
        (retimeDenominator sliced.sourceStart sliced.rate offset') =
      (retimeNumerator segment.sourceStart segment.rate offset).tmod
        (retimeDenominator segment.sourceStart segment.rate offset) := by
  have hden : retimeDenominator sliced.sourceStart sliced.rate offset' =
      retimeDenominator segment.sourceStart segment.rate offset := by
    rw [retimeDenominator, retimeDenominator, htb, htb', slice.recordClock, slice.sourceClock,
      slice.rate]
  have hfraction : (retimeNumerator segment.sourceStart segment.rate offset : ℚ) /
      retimeDenominator segment.sourceStart segment.rate offset =
        segment.sourceOffset recordTime.seconds := by
    rw [retimeFraction_eq, hsec, sourceOffset]
  have hfraction' : (retimeNumerator sliced.sourceStart sliced.rate offset' : ℚ) /
      retimeDenominator segment.sourceStart segment.rate offset =
        sliced.sourceOffset shifted.seconds := by
    rw [← hden, retimeFraction_eq, hsec', sourceOffset]
  have hmove := slice.sourceOffset_eq shifted.seconds
  rw [← hshift] at hmove
  rw [hden]
  have hpos : 0 < retimeDenominator segment.sourceStart segment.rate offset := retimeDenominator_pos
  generalize retimeDenominator segment.sourceStart segment.rate offset = d at *
  generalize retimeNumerator segment.sourceStart segment.rate offset = n at *
  generalize retimeNumerator sliced.sourceStart sliced.rate offset' = n' at *
  -- both truncate, and the truncations move with the value
  have hquotient : n'.tdiv d + k = n.tdiv d := by
    have hmoved := (@TimeRounding.rounds_add .towardZero _ _ _ (slice.same_side hin)
      (fun h => by cases h)).2 (hfraction' ▸ truncates_div hpos)
    rw [hmove, ← hfraction] at hmoved
    exact Truncates.unique hmoved (truncates_div hpos)
  have hdq : (d : ℚ) ≠ 0 := by exact_mod_cast hpos.ne'
  have hnumerator : n' + k * d = n := by
    rw [← hfraction, ← hfraction', div_add' _ _ _ hdq, div_left_inj' hdq] at hmove
    exact_mod_cast hmove
  have h₁ := (tdiv_cases hpos (n := n)).2.2
  have h₂ := (tdiv_cases hpos (n := n')).2.2
  have h₃ : d * n.tdiv d = d * n'.tdiv d + k * d := by rw [← hquotient]; ring
  omega

theorem queryFits_iff (slice : SliceOf segment sliced shift k)
    (hcontains : segment.recordRange.contains recordTime = true)
    (hsliced : sliced.recordRange.contains shifted = true)
    (hshift : recordTime.seconds = shifted.seconds + shift) :
    sliced.QueryFits shifted ↔ segment.QueryFits recordTime := by
  have hin : sliced.lo ≤ shifted.seconds := (TimeRange.contains_iff_seconds.1 hsliced).1
  constructor
  · intro h offset htb hsec
    obtain ⟨offset', htb', hsec'⟩ :=
      (slice.onClock_iff hcontains hsliced hshift).2 ⟨offset, htb, hsec⟩
    have hfits := (remainderFits_iff hsliced htb' hsec').1 (h offset' htb' hsec')
    rw [slice.remainder_eq hin hshift htb hsec htb' hsec', slice.rate] at hfits
    exact (remainderFits_iff hcontains htb hsec).2 hfits
  · intro h offset' htb' hsec'
    obtain ⟨offset, htb, hsec⟩ :=
      (slice.onClock_iff hcontains hsliced hshift).1 ⟨offset', htb', hsec'⟩
    have hfits := (remainderFits_iff hcontains htb hsec).1 (h offset htb hsec)
    rw [← slice.remainder_eq hin hshift htb hsec htb' hsec', ← slice.rate] at hfits
    exact (remainderFits_iff hsliced htb' hsec').2 hfits

end SliceOf

/-- A section cut by a range is a slice of it. -/
theorem sliceOf_of_sliceSegment {range : TimeRange} {sliced : RetimeSegment}
    (hclock : range.timebase = segment.recordRange.timebase)
    (h : ClipTimeMap.sliceSegment range segment = .ok (some sliced)) :
    ∃ k, SliceOf segment sliced range.start.seconds k ∧
      sliced.lo + range.start.seconds = (ClipTimeMap.sliceStart range segment).seconds := by
  unfold ClipTimeMap.sliceSegment at h
  split at h
  · simp [pure_eq_ok] at h
  · simp only [bind_eq_ok, pure_eq_ok, Prod.exists, Option.some.injEq] at h
    obtain ⟨sourceStart, isExact, hsource, rebasedStart, hstart, rebasedEnd, hend, rebased,
      hrebased, result, hnew, rfl⟩ := h
    obtain ⟨units, hmoved, hvalue, hsourceClock⟩ := sourceTimeAt_places hsource
    obtain ⟨offset, hoffset, -⟩ := bind_eq_ok.1 hsource
    obtain ⟨hoffsetClock, hoffset⟩ := RationalTime.checkedSubAt_spec hoffset
    obtain ⟨hstartClock, hstart⟩ := RationalTime.checkedSubAt_spec hstart
    obtain ⟨hrs, -⟩ := TimeRange.fromStartEnd_spec hrebased
    obtain ⟨hrange, hsrc, hrate⟩ := RetimeSegment.new_spec hnew
    have hlo : result.lo + range.start.seconds =
        (ClipTimeMap.sliceStart range segment).seconds := by
      rw [lo, hrange, hrs, hstart, sub_add_cancel]
    refine ⟨units, ⟨hrate, ?_, by rw [hsrc, hsourceClock], ?_, ?_, by rw [hsrc, hvalue], ?_⟩, hlo⟩
    · rw [hrange, ← TimeRange.start_timebase, hrs, hstartClock, hclock]
    · rw [hlo]
      exact ClipTimeMap.lo_le_sliceStart range segment
    · rw [hlo]
      exact Eq.symm hmoved
    · refine ⟨offset.value, ?_⟩
      rw [hlo, ← RationalTime.seconds_of_timebase_eq hoffsetClock, hoffset, lo]

/-! ## Ties -/

/-- The exact source offset of the instant lies halfway between two source units. -/
def Halfway (segment : RetimeSegment) (recordTime : RationalTime) : Prop :=
  ∃ v : Int, segment.sourceOffset recordTime.seconds = v + 1 / 2

/-- At a tie twice the remainder is the denominator, which fits. -/
theorem Halfway.queryFits (htie : segment.Halfway recordTime)
    (hcontains : segment.recordRange.contains recordTime = true) : segment.QueryFits recordTime := by
  intro offset htb hsec
  refine (remainderFits_iff hcontains htb hsec).2 fun hmoves => ?_
  obtain ⟨hlast, hpos, hle⟩ := offset_bounds hcontains htb hsec
  obtain ⟨landing, lands⟩ := exists_lands hmoves segment.lands
  obtain ⟨-, -, -, -, hdfits⟩ := lands.fits_of_le hlast hpos hle
  obtain ⟨v, hhalf⟩ := htie
  have hfraction : (retimeNumerator segment.sourceStart segment.rate offset : ℚ) /
      retimeDenominator segment.sourceStart segment.rate offset = v + 1 / 2 := by
    rw [retimeFraction_eq, hsec, ← hhalf, sourceOffset]
  have hd : 0 < retimeDenominator segment.sourceStart segment.rate offset := retimeDenominator_pos
  generalize retimeDenominator segment.sourceStart segment.rate offset = d at *
  generalize retimeNumerator segment.sourceStart segment.rate offset = n at *
  have hdq : (0 : ℚ) < d := by exact_mod_cast hd
  have htruncates := truncates_div hd (n := n)
  have hdist := div_sub_tdiv hd (n := n)
  rw [hfraction] at htruncates hdist
  have hrest := htruncates.dist_half
  rw [hdist, abs_div, abs_of_pos hdq, div_eq_iff hdq.ne'] at hrest
  have htwice : |(n.tmod d : ℚ)| * 2 = d := by linarith
  have htwice' : |n.tmod d| * 2 = d := by exact_mod_cast htwice
  rwa [Int.natCast_natAbs, htwice']

/-- A tie is selected by the section and its slice at different coordinates, if the start moves by
an odd number of units. -/
theorem SliceOf.places_ne {sliced : RetimeSegment} {shifted time : RationalTime} {shift : ℚ} {k : Int}
    (slice : SliceOf segment sliced shift k) (hshift : recordTime.seconds = shifted.seconds + shift)
    (htie : segment.Halfway recordTime) (hodd : Odd k)
    (h : segment.Places recordTime .nearestTiesEven time) :
    ¬ sliced.Places shifted .nearestTiesEven time := by
  rintro ⟨units', hrounds', hvalue', -⟩
  obtain ⟨units, hrounds, hvalue, -⟩ := h
  obtain ⟨v, hhalf⟩ := htie
  have hmove := slice.sourceOffset_eq shifted.seconds
  rw [← hshift] at hmove
  have hhalf' : sliced.sourceOffset shifted.seconds = ((v - k : Int) : ℚ) + 1 / 2 := by
    push_cast
    linarith
  rw [hhalf] at hrounds
  rw [hhalf'] at hrounds'
  -- both offsets go to an even neighbour, but the starts differ by an odd number
  have heven : Even units := by
    obtain ⟨u, hu, heven⟩ := exists_nearestEven_half v
    rwa [NearestEven.unique hrounds hu]
  have heven' : Even units' := by
    obtain ⟨u, hu, heven⟩ := exists_nearestEven_half (v - k)
    rwa [NearestEven.unique hrounds' hu]
  rw [slice.start] at hvalue'
  have hsum : k = units - units' := by omega
  rw [hsum] at hodd
  exact Int.not_even_iff_odd.2 hodd (heven.sub heven')

/-- On the record clock every tie is placed somewhere. -/
theorem Halfway.exists_places (htie : segment.Halfway recordTime)
    (hcontains : segment.recordRange.contains recordTime = true)
    (hclock : segment.OnClock recordTime) :
    ∃ time, segment.Places recordTime .nearestTiesEven time := by
  obtain ⟨v, hhalf⟩ := htie
  obtain ⟨offset, htb, hsec⟩ := hclock
  obtain ⟨units, hunits, -⟩ := exists_nearestEven_half v
  rw [← hhalf] at hunits
  obtain ⟨hlast, hpos, hle⟩ := offset_bounds hcontains htb hsec
  have hmoves : segment.rate.isFreeze = false := by
    cases hfreeze : segment.rate.isFreeze with
    | false => rfl
    | true =>
        -- a frozen section stays at offset zero
        rw [sourceOffset, PlaybackRate.ratio_of_isFreeze hfreeze, zero_mul, zero_div] at hhalf
        have htwice : ((2 * v + 1 : Int) : ℚ) = 0 := by
          push_cast
          linarith
        have htwice' : 2 * v + 1 = 0 := by exact_mod_cast htwice
        omega
  obtain ⟨landing, lands⟩ := exists_lands hmoves segment.lands
  obtain ⟨-, hreached⟩ := @Lands.inI64_of_le .nearestTiesEven _ _ _ _ _ lands hlast hpos hle
    units (by rw [hsec]; exact hunits)
  exact ⟨⟨_, segment.sourceStart.timebase, hreached⟩, units, hunits, rfl, rfl⟩

end RetimeSegment

/-! ## A map and its slice -/

theorem checkSegments_timebase {recordDuration : Duration} {sourceTimebase : Timebase}
    {segments : List RetimeSegment} {expectedStart : RationalTime}
    (h : checkSegments recordDuration sourceTimebase segments expectedStart = .ok ()) :
    ∀ segment ∈ segments, segment.recordRange.timebase = recordDuration.timebase := by
  induction segments generalizing expectedStart with
  | nil =>
      intro segment hmem
      cases hmem
  | cons segment rest ih =>
      simp only [checkSegments, bind_eq_ok, rejectIf_eq_ok, not_not] at h
      obtain ⟨_, hclock, _, -, _, -, _, -, hrest⟩ := h
      exact List.forall_mem_cons.2 ⟨hclock, ih hrest⟩

namespace ClipTimeMap

variable {map : ClipTimeMap} {range : TimeRange} {sliced : Bound range.duration map.sourceTimebase}
  {recordTime shifted : RationalTime}

/-- The section of a slice that holds an instant is the slice of the section that held it. -/
theorem slice_sliceOf (h : map.slice range = .ok sliced)
    (hin : range.contains recordTime = true)
    (hshift : shifted.seconds = recordTime.seconds - range.start.seconds) :
    ∃ segment ∈ map.segments, ∃ part ∈ sliced.1.segments, ∃ k,
      segment.recordRange.contains recordTime = true ∧
        part.recordRange.contains shifted = true ∧
        RetimeSegment.SliceOf segment part range.start.seconds k ∧
        part.lo + range.start.seconds = (sliceStart range segment).seconds := by
  simp only [slice, bind_eq_ok, rejectIf_eq_ok, not_or, not_not] at h
  obtain ⟨complete, hcomplete, _, ⟨-, hclock, -⟩, parts, hparts, hnew⟩ := h
  have hsegments := new_segments hnew
  obtain ⟨hlow, hhigh⟩ := TimeRange.contains_iff_seconds.1 hin
  rw [TimeRange.seconds_endExclusive] at hhigh
  obtain ⟨part, hpart, hcovers⟩ := sliced.1.tiles.exists_covers (t := shifted.seconds)
    (by linarith) (by rw [sliced.2.1]; linarith)
  have hmem := hpart
  rw [hsegments, List.mem_filterMap] at hmem
  obtain ⟨produced, hproduced, hsome⟩ := hmem
  obtain ⟨segment, hsegment, hslice⟩ := exists_of_mem_mapM hparts hproduced
  have hsome' : produced = some part := hsome
  rw [hsome'] at hslice
  have hrange : range.timebase = segment.recordRange.timebase := by
    rw [checkSegments_timebase map.checked segment hsegment, hclock,
      ← TimeRange.start_timebase, (TimeRange.new_eq_ok.1 hcomplete).1, RationalTime.zero_timebase]
  obtain ⟨k, hof, hstart⟩ := RetimeSegment.sliceOf_of_sliceSegment hrange hslice
  obtain ⟨hback, -⟩ := sliceSegment_spec hslice shifted.seconds hcovers
  rw [hshift, sub_add_cancel] at hback
  exact ⟨segment, hsegment, part, hpart, k, TimeRange.contains_iff_seconds.2 hback,
    TimeRange.contains_iff_seconds.2 hcovers, hof, hstart⟩

/-- The instant is a tie of its section, and the start of the section moves by an odd number of
source units where the range cuts it. -/
def TieMoves (map : ClipTimeMap) (range : TimeRange) (recordTime : RationalTime) : Prop :=
  ∃ segment ∈ map.segments, segment.recordRange.contains recordTime = true ∧
    segment.OnClock recordTime ∧ segment.Halfway recordTime ∧
      ∃ k : Int, Odd k ∧ segment.sourceOffset (sliceStart range segment).seconds = k

/-- A slice selects at every instant of its range what the map selects, except at the ties of
rounding to the nearest that move. -/
theorem slice_preserves_iff (h : map.slice range = .ok sliced)
    (hin : range.contains recordTime = true)
    (hshift : shifted.seconds = recordTime.seconds - range.start.seconds)
    (rounding : TimeRounding) :
    selected (sliced.1.sourceTimeAtMachine shifted rounding) =
        selected (map.sourceTimeAtMachine recordTime rounding) ↔
      ¬ (rounding = .nearestTiesEven ∧ map.TieMoves range recordTime) := by
  obtain ⟨segment, hsegment, part, hpart, k, hcontains, hpartContains, slice, hstart⟩ :=
    slice_sliceOf h hin hshift
  have hback : recordTime.seconds = shifted.seconds + range.start.seconds := by linarith
  constructor
  · rintro hsame ⟨rfl, found, hfound, hfoundContains, hclock, htie, k', hodd, hk'⟩
    have hself : found = segment := map.tiles.covers_unique hfound hsegment
      (TimeRange.contains_iff_seconds.1 hfoundContains) (TimeRange.contains_iff_seconds.1 hcontains)
    subst hself
    have hkk' : k = k' := by
      have hmoved := slice.moved
      rw [hstart, hk'] at hmoved
      exact_mod_cast hmoved.symm
    subst hkk'
    obtain ⟨time, hplaces⟩ := htie.exists_places hcontains hclock
    have hselected := (selected_eq_some hsegment hcontains).2
      ⟨fun _ => htie.queryFits hcontains, hclock, hplaces⟩
    rw [← hsame, selected_eq_some hpart hpartContains] at hselected
    exact slice.places_ne hback htie hodd hplaces hselected.2.2
  · intro hmoves
    refine Option.ext fun time => ?_
    rw [selected_eq_some hpart hpartContains, selected_eq_some hsegment hcontains,
      slice.queryFits_iff hcontains hpartContains hback,
      slice.onClock_iff hcontains hpartContains hback]
    refine and_congr_right fun _ => and_congr_right fun hclock => ?_
    refine slice.places_iff (TimeRange.contains_iff_seconds.1 hpartContains).1 hback fun hnearest => ?_
    by_contra htie
    simp only [not_or, not_forall, ne_eq, not_not, Int.not_even_iff_odd] at htie
    obtain ⟨hodd, v, hdist⟩ := htie
    refine hmoves ⟨hnearest, segment, hsegment, hcontains, hclock, ?_, k, hodd, ?_⟩
    · have hmove := slice.sourceOffset_eq shifted.seconds
      rw [← hback] at hmove
      rcases abs_eq (by norm_num) |>.1 hdist with hup | hdown
      · refine ⟨v + k, ?_⟩
        push_cast
        linarith
      · refine ⟨v + k - 1, ?_⟩
        push_cast
        linarith
    · rw [← hstart]
      exact slice.moved

end ClipTimeMap

/-! ## A tie that moves -/

/-- A map of four frames at half speed. -/
def halfSpeedMap : ClipTimeMap where
  recordDuration := ⟨4, .integer 24 Timebase.pos_24 Timebase.fits_24, by decide⟩
  sourceTimebase := .integer 24 Timebase.pos_24 Timebase.fits_24
  segments := [{
    recordRange :=
      { start := .zero (.integer 24 Timebase.pos_24 Timebase.fits_24)
        duration := ⟨4, .integer 24 Timebase.pos_24 Timebase.fits_24, by decide⟩
        oneTimebase := rfl
        endFits := by decide }
    sourceStart := .zero (.integer 24 Timebase.pos_24 Timebase.fits_24)
    rate := ⟨1, 2, inI64_one, Nat.two_pos, by decide, by decide⟩
    nonempty := by decide
    nonnegative := by decide
    lands := by decide }]
  durationNonzero := by decide
  nonempty := by decide
  checked := by decide

def frame24 (value : Int) (h : InI64 value) : RationalTime :=
  ⟨value, .integer 24 Timebase.pos_24 Timebase.fits_24, h⟩

/-- Its last two frames. -/
def secondHalf : TimeRange :=
  { start := frame24 2 (by decide)
    duration := ⟨2, .integer 24 Timebase.pos_24 Timebase.fits_24, by decide⟩
    oneTimebase := rfl
    endFits := by decide }

/-- The slice of its last two frames starts at source frame one. -/
def slicedHalfSpeedMap : ClipTimeMap.Bound secondHalf.duration halfSpeedMap.sourceTimebase :=
  ⟨{ recordDuration := secondHalf.duration
     sourceTimebase := halfSpeedMap.sourceTimebase
     segments := [{
       recordRange :=
         { start := .zero (.integer 24 Timebase.pos_24 Timebase.fits_24)
           duration := ⟨2, .integer 24 Timebase.pos_24 Timebase.fits_24, by decide⟩
           oneTimebase := rfl
           endFits := by decide }
       sourceStart := frame24 1 inI64_one
       rate := ⟨1, 2, inI64_one, Nat.two_pos, by decide, by decide⟩
       nonempty := by decide
       nonnegative := by decide
       lands := by decide }]
     durationNonzero := by decide
     nonempty := by decide
     checked := by decide }, rfl, rfl⟩

/-- Frame three is a tie between source frames one and two: the map selects frame two and its slice
frame one. -/
theorem halfSpeed_slice_moves :
    halfSpeedMap.slice secondHalf = .ok slicedHalfSpeedMap ∧
      secondHalf.contains (frame24 3 (by decide)) = true ∧
      (frame24 1 (by decide)).seconds =
        (frame24 3 (by decide)).seconds - secondHalf.start.seconds ∧
      selected (halfSpeedMap.sourceTimeAtMachine (frame24 3 (by decide)) .nearestTiesEven) =
        some (frame24 2 (by decide)) ∧
      selected (slicedHalfSpeedMap.1.sourceTimeAtMachine (frame24 1 (by decide)) .nearestTiesEven) =
        some (frame24 1 (by decide)) := by
  refine ⟨by decide +kernel, by decide, by decide +kernel, by decide +kernel, by decide +kernel⟩

/-- Rounding down, the slice selects what the map does. -/
theorem halfSpeed_slice_floor :
    selected (slicedHalfSpeedMap.1.sourceTimeAtMachine (frame24 1 (by decide)) .floor) =
      selected (halfSpeedMap.sourceTimeAtMachine (frame24 3 (by decide)) .floor) :=
  (ClipTimeMap.slice_preserves_iff (by decide +kernel) (by decide) (by decide +kernel) .floor).2
    (by rintro ⟨h, -⟩; cases h)

end Editorial
end Superi

import Superi.Core.Int128
import Superi.Lib.Rounding

/-!
# TimeExact — time arithmetic is exact and nothing overflows

Every conversion and binary operation is followed through its 128-bit steps.  None of the unchecked
ones overflows on any input, and what comes out is an error or the exact rational result rounded by
the requested policy.
-/

namespace Superi
namespace Core

open Result Rounding

/-! ## Policies -/

/-- The integer a policy demands for a rational result. -/
def TimeRounding.Rounds : TimeRounding → ℚ → Int → Prop
  | .exact, q, v => (v : ℚ) = q
  | .floor, q, v => IsFloor q v
  | .ceil, q, v => IsCeil q v
  | .towardZero, q, v => Truncates q v
  | .nearestTiesEven, q, v => NearestEven q v

theorem TimeRounding.Rounds.unique {rounding : TimeRounding} {q : ℚ} {v w : Int}
    (hv : rounding.Rounds q v) (hw : rounding.Rounds q w) : v = w := by
  cases rounding with
  | exact =>
      have heq : (v : ℚ) = w := hv.trans (Eq.symm hw)
      exact_mod_cast heq
  | floor => exact IsFloor.unique hv hw
  | ceil => exact IsCeil.unique hv hw
  | towardZero => exact Truncates.unique hv hw
  | nearestTiesEven => exact NearestEven.unique hv hw

/-- An integer is its own rounding under every policy. -/
theorem TimeRounding.rounds_intCast (rounding : TimeRounding) (v : Int) :
    rounding.Rounds (v : ℚ) v := by
  cases rounding with
  | exact => exact rfl
  | floor => exact ⟨le_rfl, lt_add_one _⟩
  | ceil => exact ⟨sub_one_lt _, le_rfl⟩
  | towardZero => exact ⟨le_rfl, by simp⟩
  | nearestTiesEven => exact .inl (by simp)

/-! ## Rounding a quotient -/

/-- What both divisions of the source make of a truncated quotient and its remainder; `inexact` is
the refusal of a remainder that the caller did not allow. -/
def roundQuotient (numerator denominator quotient remainder : Int) (rounding : TimeRounding)
    (inexact : Error) : Except Error Int :=
  match rounding with
  | .exact => if remainder ≠ 0 then .error inexact else .ok quotient
  | .floor => .ok (if remainder < 0 then quotient - 1 else quotient)
  | .ceil => .ok (if remainder > 0 then quotient + 1 else quotient)
  | .towardZero => .ok quotient
  | .nearestTiesEven =>
      .ok (match Ord.compare ((remainder.natAbs : Int) * 2) denominator with
        | .lt => quotient
        | .gt => quotient + numerator.sign
        | .eq => if quotient.tmod 2 = 0 then quotient else quotient + numerator.sign)

/-- The same, step by step. -/
def roundQuotientMachine (numerator denominator quotient remainder : Int) (rounding : TimeRounding)
    (inexact : Error) : Machine Int :=
  match rounding with
  | .exact => if remainder ≠ 0 then Machine.lift (.error inexact) else pure quotient
  | .floor => if remainder < 0 then sub128 quotient 1 else pure quotient
  | .ceil => if remainder > 0 then add128 quotient 1 else pure quotient
  | .towardZero => pure quotient
  | .nearestTiesEven => do
      let magnitude ← abs128 remainder
      let doubled ← mul128 magnitude 2
      match Ord.compare doubled denominator with
      | .lt => pure quotient
      | .gt => add128 quotient numerator.sign
      | .eq => if quotient.tmod 2 = 0 then pure quotient else add128 quotient numerator.sign

variable {numerator denominator : Int} {rounding : TimeRounding} {inexact : Error}

/-- A quotient that is rounded at all is rounded as the policy says. -/
theorem roundQuotient_rounds (hd : 0 < denominator) {value : Int}
    (h : roundQuotient numerator denominator (numerator.tdiv denominator)
      (numerator.tmod denominator) rounding inexact = .ok value) :
    rounding.Rounds (numerator / denominator) value := by
  cases rounding with
  | exact =>
      simp only [roundQuotient] at h
      split at h
      · cases h
      · rename_i hrest
        cases h
        exact (eq_div_iff_tmod hd).2 ⟨not_not.1 hrest, rfl⟩
  | floor =>
      cases h
      exact isFloor_div hd
  | ceil =>
      cases h
      exact isCeil_div hd
  | towardZero =>
      cases h
      exact truncates_div hd
  | nearestTiesEven =>
      cases h
      exact nearestEven_div hd

/-- Beside a remainder the quotient is at most half the range. -/
theorem two_mul_tdiv_le (hd : 0 < denominator) (hrest : numerator.tmod denominator ≠ 0) :
    2 * (numerator.tdiv denominator).natAbs ≤ numerator.natAbs := by
  have hone : denominator ≠ 1 := by
    rintro rfl
    exact hrest (Int.tmod_one numerator)
  rw [Int.natAbs_tdiv]
  have htwo : 2 ≤ denominator.natAbs := by omega
  calc 2 * numerator.natAbs.div denominator.natAbs
      ≤ denominator.natAbs * (numerator.natAbs / denominator.natAbs) :=
        Nat.mul_le_mul_right _ htwo
    _ ≤ numerator.natAbs := Nat.mul_div_le _ _

/-- Rounding overflows only where twice the remainder does, and that is asked for only by rounding
to the nearest. -/
theorem roundQuotientMachine_eq (hn : InI128 numerator) (hd : 0 < denominator)
    (hdouble : rounding = .nearestTiesEven →
      InI128 ((numerator.tmod denominator).natAbs * 2)) :
    roundQuotientMachine numerator denominator (numerator.tdiv denominator)
        (numerator.tmod denominator) rounding inexact =
      Machine.lift (roundQuotient numerator denominator (numerator.tdiv denominator)
        (numerator.tmod denominator) rounding inexact) := by
  have hq : numerator.tmod denominator ≠ 0 → ∀ k : Int, -1 ≤ k → k ≤ 1 →
      InI128 (numerator.tdiv denominator + k) := by
    intro hrest k hlow hhigh
    have hhalf := two_mul_tdiv_le hd hrest
    rw [inI128_iff] at hn ⊢
    omega
  unfold roundQuotientMachine roundQuotient
  cases rounding with
  | exact =>
      by_cases hrest : numerator.tmod denominator = 0
      · simp [hrest]
      · simp only [ne_eq, hrest, not_false_eq_true, if_true]
  | floor =>
      by_cases hneg : numerator.tmod denominator < 0
      · simp only [hneg, if_true]
        rw [sub128, Int.sub_eq_add_neg, narrow_eq (hq hneg.ne (-1) le_rfl (by omega))]
        rfl
      · simp only [hneg, if_false]
        rfl
  | ceil =>
      by_cases hpos : numerator.tmod denominator > 0
      · simp only [hpos, if_true]
        rw [add128, narrow_eq (hq (ne_of_gt hpos) 1 (by omega) le_rfl)]
        rfl
      · simp only [hpos, if_false]
        rfl
  | towardZero => rfl
  | nearestTiesEven =>
      have hdoubled := hdouble rfl
      have hmagnitude : InI128 (numerator.tmod denominator).natAbs := by
        rw [inI128_iff] at hdoubled ⊢
        omega
      have hsign := Int.sign_trichotomy numerator
      have haway : numerator.tmod denominator ≠ 0 →
          add128 (numerator.tdiv denominator) numerator.sign =
            pure (numerator.tdiv denominator + numerator.sign) := fun hrest =>
        narrow_eq (hq hrest _ (by omega) (by omega))
      simp only [abs128, mul128, narrow_eq hmagnitude, narrow_eq hdoubled, pure_bind]
      cases hcmp : Ord.compare ((numerator.tmod denominator).natAbs * 2 : Int) denominator with
      | lt => rfl
      | gt =>
          have hrest : numerator.tmod denominator ≠ 0 := by
            have hgt := compare_gt_iff_gt.1 hcmp
            omega
          exact haway hrest
      | eq =>
          have hrest : numerator.tmod denominator ≠ 0 := by
            have heq := compare_eq_iff_eq.1 hcmp
            omega
          by_cases heven : (numerator.tdiv denominator).tmod 2 = 0
          · simp only [heven, if_true]
            rfl
          · simp only [heven, if_false]
            exact haway hrest

/-- Where twice the remainder does not fit, rounding to the nearest has no outcome. -/
theorem roundQuotientMachine_overflows
    (hdouble : ¬ InI128 ((numerator.tmod denominator).natAbs * 2)) :
    roundQuotientMachine numerator denominator (numerator.tdiv denominator)
      (numerator.tmod denominator) .nearestTiesEven inexact = ExceptT.mk none := by
  simp only [roundQuotientMachine, abs128, mul128, narrow]
  split
  · rw [pure_bind, if_neg hdouble]
    rfl
  · rfl

/-! ## The 128-bit steps -/

namespace RationalTime

variable {operation : String} {target : Timebase} {time other result : RationalTime}

/-- The refusal of a conversion that leaves a remainder. -/
def inexactTime (operation : String) : Error :=
  invalidTime operation "time conversion is not exact at the requested timebase"

/-- `divide_time`, step by step. -/
def divideTimeMachine (numerator denominator : Int) (rounding : TimeRounding) (operation : String)
    (target : Timebase) : Machine RationalTime := do
  let quotient ← div128 numerator denominator
  let remainder ← rem128 numerator denominator
  let rounded ← roundQuotientMachine numerator denominator quotient remainder rounding
    (inexactTime operation)
  Machine.lift (tryFrom rounded target (overflowTime operation))

theorem divideTime_eq : divideTime numerator denominator rounding operation target =
    (roundQuotient numerator denominator (numerator.tdiv denominator) (numerator.tmod denominator)
      rounding (inexactTime operation) >>= fun rounded =>
        tryFrom rounded target (overflowTime operation)) := by
  unfold divideTime roundQuotient
  cases rounding with
  | exact =>
      by_cases hrest : numerator.tmod denominator = 0
      · simp only [hrest, ne_eq, not_true_eq_false, if_false]
        rfl
      · simp only [hrest, ne_eq, not_false_eq_true, if_true]
        rfl
  | floor => rfl
  | ceil => rfl
  | towardZero => rfl
  | nearestTiesEven => rfl

/-- `checked_rescale`, step by step. -/
def checkedRescaleMachine (time : RationalTime) (target : Timebase) (rounding : TimeRounding) :
    Machine RationalTime :=
  if time.timebase = target then pure time
  else do
    let scaled ← mul128 time.value time.timebase.denominator
    let numerator ← mul128 scaled target.numerator
    let denominator ← mul128 time.timebase.numerator target.denominator
    divideTimeMachine numerator denominator rounding "rescale_time" target

/-- `units_at`, step by step. -/
def unitsAtMachine (time : RationalTime) (target : Timebase) : Machine (Int × Int) := do
  let scaled ← Machine.lift (okOr (checkedI128 (time.value * time.timebase.denominator))
    (overflowTime "convert_time"))
  let numerator ← Machine.lift (okOr (checkedI128 (scaled * target.numerator))
    (overflowTime "convert_time"))
  let denominator ← Machine.lift (okOr (checkedI128 (time.timebase.numerator * target.denominator))
    (overflowTime "convert_time"))
  let magnitude ← abs128 numerator
  let commonDivisor ← gcd128 magnitude denominator
  let units ← div128 numerator commonDivisor
  let scale ← div128 denominator commonDivisor
  pure (units, scale)

/-- `checked_binary_at`, step by step. -/
def checkedBinaryAtMachine (time other : RationalTime) (resultTimebase : Timebase)
    (rounding : TimeRounding) (operation : BinaryTimeOperation) : Machine RationalTime := do
  let (leftNumerator, leftDenominator) ← unitsAtMachine time resultTimebase
  let (rightNumerator, rightDenominator) ← unitsAtMachine other resultTimebase
  let commonDivisor ← gcd128 leftDenominator rightDenominator
  let leftMultiplier ← div128 rightDenominator commonDivisor
  let rightMultiplier ← div128 leftDenominator commonDivisor
  let left ← Machine.lift (okOr (checkedI128 (leftNumerator * leftMultiplier))
    (overflowTime operation.name))
  let right ← Machine.lift (okOr (checkedI128 (rightNumerator * rightMultiplier))
    (overflowTime operation.name))
  let numerator ← Machine.lift (okOr (checkedI128 (operation.apply left right))
    (overflowTime operation.name))
  let denominator ← Machine.lift (okOr (checkedI128 (leftDenominator * leftMultiplier))
    (overflowTime operation.name))
  divideTimeMachine numerator denominator rounding operation.name resultTimebase

/-- `compare`, step by step. -/
def compareMachine (left right : RationalTime) : Machine Ordering := do
  let leftScaled ← mul128 left.value left.timebase.denominator
  let leftProduct ← mul128 leftScaled right.timebase.numerator
  let rightScaled ← mul128 right.value right.timebase.denominator
  let rightProduct ← mul128 rightScaled left.timebase.numerator
  pure (Ord.compare leftProduct rightProduct)

/-! ## Nothing overflows -/

theorem divideTimeMachine_eq (hn : InI128 numerator) (hd : 0 < denominator)
    (hdouble : rounding = .nearestTiesEven →
      InI128 ((numerator.tmod denominator).natAbs * 2)) :
    divideTimeMachine numerator denominator rounding operation target =
      Machine.lift (divideTime numerator denominator rounding operation target) := by
  rw [divideTimeMachine, div128_eq hn hd, pure_bind, rem128_eq hn hd, pure_bind,
    roundQuotientMachine_eq hn hd hdouble, divideTime_eq, Machine.lift_bind]

/-- A division that returns has rounded the quotient as the policy says. -/
theorem divideTime_rounds (hd : 0 < denominator)
    (h : divideTime numerator denominator rounding operation target = .ok result) :
    rounding.Rounds (numerator / denominator) result.value ∧ result.timebase = target := by
  rw [divideTime_eq, bind_eq_ok] at h
  obtain ⟨rounded, hrounded, htry⟩ := h
  obtain ⟨rfl, htb⟩ := tryFrom_eq_ok.1 htry
  exact ⟨roundQuotient_rounds hd hrounded, htb⟩

/-- A coordinate scaled by two terms of timebases fits 128 bits. -/
theorem inI128_product {value : Int} {first second : Nat} (hvalue : InI64 value)
    (hfirst : first < 4294967296) (hsecond : second < 4294967296) :
    InI128 (value * first) ∧ InI128 (value * first * second) ∧
      InI128 (value * first * second).natAbs := by
  rw [inI64_iff] at hvalue
  have hfirst' : value.natAbs * first ≤ 9223372036854775808 * 4294967295 :=
    Nat.mul_le_mul (by omega) (by omega)
  have hsecond' : value.natAbs * first * second ≤
      9223372036854775808 * 4294967295 * 4294967295 := Nat.mul_le_mul hfirst' (by omega)
  have habs₁ : (value * first).natAbs = value.natAbs * first := by
    rw [Int.natAbs_mul, Int.natAbs_natCast]
  have habs₂ : (value * first * second).natAbs = value.natAbs * first * second := by
    rw [Int.natAbs_mul, habs₁, Int.natAbs_natCast]
  rw [inI128_iff, inI128_iff, inI128_iff]
  omega

/-- A product of three terms of timebases fits 128 bits even when it is doubled. -/
theorem lt_of_three_terms {first second third : Nat} (hfirst : first < 4294967296)
    (hsecond : second < 4294967296) (hthird : third < 4294967296) :
    first * second * third < 79228162514264337593543950336 :=
  calc first * second * third
      ≤ 4294967295 * 4294967295 * 4294967295 :=
        Nat.mul_le_mul (Nat.mul_le_mul (by omega) (by omega)) (by omega)
    _ < 79228162514264337593543950336 := by decide

/-- A remainder of a division by a value that fits 96 bits can be doubled. -/
theorem inI128_doubled (hd : 0 < denominator)
    (hsmall : denominator < 79228162514264337593543950336) :
    InI128 ((numerator.tmod denominator).natAbs * 2) := by
  have hlt := (tdiv_cases hd (n := numerator)).2.1
  rw [Int.abs_eq_natAbs] at hlt
  rw [inI128_iff]
  omega

theorem clocks_bounds (origin target : Timebase) :
    (0 : Int) < origin.numerator * target.denominator ∧
      (origin.numerator * target.denominator : Int) < 79228162514264337593543950336 ∧
      InI128 (origin.numerator * target.denominator) := by
  have hlt := lt_of_three_terms origin.numerator_fits target.denominator_fits
    (show 1 < 4294967296 by decide)
  rw [Nat.mul_one] at hlt
  have hlt' : (origin.numerator * target.denominator : Int) < 79228162514264337593543950336 := by
    exact_mod_cast hlt
  have hpos : (0 : Int) < origin.numerator * target.denominator := by
    exact_mod_cast Nat.mul_pos origin.numerator_pos target.denominator_pos
  refine ⟨hpos, hlt', ?_⟩
  rw [inI128_iff]
  omega

theorem compareMachine_eq (left right : RationalTime) :
    compareMachine left right = pure (left.compare right) := by
  obtain ⟨h₁, h₂, -⟩ := inI128_product left.inRange left.timebase.denominator_fits
    right.timebase.numerator_fits
  obtain ⟨h₃, h₄, -⟩ := inI128_product right.inRange right.timebase.denominator_fits
    left.timebase.numerator_fits
  simp only [compareMachine, mul128, narrow_eq h₁, narrow_eq h₂, narrow_eq h₃, narrow_eq h₄,
    pure_bind]
  rfl

theorem checkedRescaleMachine_eq :
    checkedRescaleMachine time target rounding = Machine.lift (time.checkedRescale target rounding) := by
  unfold checkedRescaleMachine checkedRescale
  split
  · rfl
  · obtain ⟨h₁, h₂, -⟩ := inI128_product time.inRange time.timebase.denominator_fits
      target.numerator_fits
    obtain ⟨hpos, hsmall, h₃⟩ := clocks_bounds time.timebase target
    simp only [mul128, narrow_eq h₁, narrow_eq h₂, narrow_eq h₃, pure_bind]
    exact divideTimeMachine_eq h₂ hpos fun _ => inI128_doubled hpos hsmall

/-- The units of a coordinate are in range, over a divisor of the product of the two clocks. -/
theorem unitsAt_bounds {n d : Int} (h : time.unitsAt target = .ok (n, d)) :
    0 < d ∧ d ∣ (time.timebase.numerator * target.denominator : Nat) := by
  refine ⟨(unitsAt_spec h).1, ?_⟩
  simp only [unitsAt, bind_eq_ok, okOr_eq_ok, pure_eq_ok, Prod.mk.injEq] at h
  obtain ⟨scaled, -, numerator, -, denominator, hdenominator, -, rfl⟩ := h
  rw [checkedI128_eq_some hdenominator]
  push_cast
  have hdvd : (Int.gcd numerator (time.timebase.numerator * target.denominator) : Int) ∣
      time.timebase.numerator * target.denominator := Int.gcd_dvd_right _ _
  exact ⟨_, (Int.tdiv_mul_cancel hdvd).symm⟩

/-- The two products a coordinate is measured by in target units. -/
def unitsFraction (time : RationalTime) (target : Timebase) : Int × Int :=
  (time.value * time.timebase.denominator * target.numerator,
    time.timebase.numerator * target.denominator)

theorem unitsFraction_div (time : RationalTime) (target : Timebase) :
    ((time.unitsFraction target).1 : ℚ) / (time.unitsFraction target).2 =
      time.seconds / target.unit := by
  have hn : (time.timebase.numerator : ℚ) ≠ 0 := by
    exact_mod_cast time.timebase.numerator_pos.ne'
  have htn : (target.numerator : ℚ) ≠ 0 := by exact_mod_cast target.numerator_pos.ne'
  have htd : (target.denominator : ℚ) ≠ 0 := by exact_mod_cast target.denominator_pos.ne'
  rw [unitsFraction, seconds, Timebase.unit, Timebase.unit]
  push_cast
  field_simp

/-- None of the checks of `units_at` fails. -/
theorem unitsAt_eq (time : RationalTime) (target : Timebase) : time.unitsAt target = .ok
    ((time.unitsFraction target).1.tdiv
        (Int.gcd (time.unitsFraction target).1 (time.unitsFraction target).2),
      (time.unitsFraction target).2.tdiv
        (Int.gcd (time.unitsFraction target).1 (time.unitsFraction target).2)) := by
  obtain ⟨h₁, h₂, -⟩ := inI128_product time.inRange time.timebase.denominator_fits
    target.numerator_fits
  obtain ⟨-, -, h₃⟩ := clocks_bounds time.timebase target
  simp only [unitsAt, bind_eq_ok, okOr_eq_ok, pure_eq_ok]
  exact ⟨_, checkedI128_eq h₁, _, checkedI128_eq h₂, _, checkedI128_eq h₃, rfl⟩

theorem unitsAtMachine_eq :
    unitsAtMachine time target = Machine.lift (time.unitsAt target) := by
  obtain ⟨h₁, h₂, hmagnitude⟩ := inI128_product time.inRange time.timebase.denominator_fits
    target.numerator_fits
  obtain ⟨hpos, -, h₃⟩ := clocks_bounds time.timebase target
  have hg : (0 : Int) < Int.gcd (time.value * time.timebase.denominator * target.numerator)
      (time.timebase.numerator * target.denominator) := by
    exact_mod_cast Int.gcd_pos_of_ne_zero_right _ hpos.ne'
  have hgcd : Int.gcd ((time.value * time.timebase.denominator * target.numerator).natAbs : Int)
      (time.timebase.numerator * target.denominator) =
        Int.gcd (time.value * time.timebase.denominator * target.numerator)
          (time.timebase.numerator * target.denominator) := by
    rw [Int.gcd, Int.natAbs_natCast]
    rfl
  rw [unitsAt_eq, Machine.lift_ok]
  simp only [unitsAtMachine, checkedI128_eq h₁, checkedI128_eq h₂, checkedI128_eq h₃,
    okOr, Machine.lift_ok, pure_bind, abs128, narrow_eq hmagnitude,
    gcd128_of_nonneg (Int.natCast_nonneg _) hpos.le, hgcd, div128_eq h₂ hg, div128_eq h₃ hg]
  rfl

/-- A coordinate that lies on the target clock is measured in whole units. -/
theorem unitsAt_of_whole {units : Int} (h : time.seconds / target.unit = units) :
    time.unitsAt target = .ok (units, 1) := by
  obtain ⟨hpos, -, -⟩ := clocks_bounds time.timebase target
  have hpos' : 0 < (time.unitsFraction target).2 := hpos
  have hquotient : (units : ℚ) = (time.unitsFraction target).1 / (time.unitsFraction target).2 := by
    rw [unitsFraction_div, h]
  obtain ⟨hrest, hunits⟩ := (eq_div_iff_tmod hpos').1 hquotient
  have hgcd : (Int.gcd (time.unitsFraction target).1 (time.unitsFraction target).2 : Int) =
      (time.unitsFraction target).2 := by
    rw [Int.gcd_eq_natAbs_right (Int.dvd_of_tmod_eq_zero hrest)]
    omega
  rw [unitsAt_eq, hgcd, ← hunits, Int.tdiv_self hpos'.ne']

/-- An exact subtraction on the clock of its second operand succeeds whenever the difference is a
coordinate of that clock. -/
theorem checkedSubAt_complete {offset : RationalTime} (hother : other.timebase = target)
    (htb : offset.timebase = target) (hsec : offset.seconds = time.seconds - other.seconds) :
    time.checkedSubAt other target .exact = .ok offset := by
  have hunit := target.unit_pos.ne'
  have hright : other.seconds / target.unit = other.value := by
    rw [seconds_of_timebase_eq hother, mul_div_cancel_right₀ _ hunit]
  have hleft : time.seconds / target.unit = ((offset.value + other.value : Int) : ℚ) := by
    have hsum : time.seconds = offset.seconds + other.seconds := by linarith
    rw [hsum, add_div, hright, seconds_of_timebase_eq htb, mul_div_cancel_right₀ _ hunit]
    push_cast
    ring
  have hoffset := offset.inRange
  have hother' := other.inRange
  rw [inI64_iff] at hoffset hother'
  have h₁ : InI128 (offset.value + other.value) := by
    rw [inI128_iff]
    omega
  have h₂ := inI128_of_inI64 other.inRange
  have h₃ := inI128_of_inI64 offset.inRange
  have hone : InI128 1 := by decide
  have hdiv : divideTime offset.value 1 .exact "subtract_time" target = .ok offset := by
    rw [divideTime_exact_eq_ok]
    exact ⟨one_dvd _, (Int.tdiv_one _).symm, htb⟩
  have hdifference : offset.value + other.value - other.value = offset.value := by omega
  rw [checkedSubAt, checkedBinaryAt, unitsAt_of_whole hleft, unitsAt_of_whole hright]
  simp only [bind_eq_ok, okOr_eq_ok, Except.ok.injEq, exists_eq_left', Int.gcd_self,
    Int.natAbs_one, Nat.cast_one, Int.tdiv_one, Int.mul_one, BinaryTimeOperation.apply]
  rw [← hdifference] at h₃ hdiv
  exact ⟨_, checkedI128_eq h₁, _, checkedI128_eq h₂, _, checkedI128_eq h₃, _, checkedI128_eq hone,
    hdiv⟩

/-- The common denominator of two amounts in one clock divides the product of three terms of
timebases, and so can be doubled. -/
theorem commonDenominator_bounds {ld rd : Int} {first second third : Nat} (hld : 0 < ld)
    (hrd : 0 < rd) (hleft : ld ∣ (first * third : Nat)) (hright : rd ∣ (second * third : Nat))
    (hpos : 0 < first * second * third)
    (hsmall : first * second * third < 79228162514264337593543950336) :
    0 < ld * rd.tdiv (Int.gcd ld rd) ∧
      ld * rd.tdiv (Int.gcd ld rd) < 79228162514264337593543950336 := by
  lift ld to Nat using hld.le
  lift rd to Nat using hrd.le
  have hlcm : ld * (rd / Nat.gcd ld rd) = Nat.lcm ld rd :=
    (Nat.mul_div_assoc ld (Nat.gcd_dvd_right ld rd)).symm
  have hcast : (ld : Int) * (rd : Int).tdiv (Int.gcd ld rd) = (Nat.lcm ld rd : Nat) := by
    rw [← hlcm]
    rfl
  have hdvd : Nat.lcm ld rd ∣ first * second * third := by
    refine Nat.lcm_dvd ?_ ?_
    · have h := (Int.natCast_dvd_natCast.1 hleft).mul_left second
      rwa [← Nat.mul_assoc, Nat.mul_comm second first] at h
    · have h := (Int.natCast_dvd_natCast.1 hright).mul_left first
      rwa [← Nat.mul_assoc] at h
  have hle := Nat.le_of_dvd hpos hdvd
  have hlcmpos : 0 < Nat.lcm ld rd :=
    Nat.lcm_pos (by exact_mod_cast hld) (by exact_mod_cast hrd)
  rw [hcast]
  omega

theorem checkedBinaryAtMachine_eq {operation : BinaryTimeOperation} :
    checkedBinaryAtMachine time other target rounding operation =
      Machine.lift (time.checkedBinaryAt other target rounding operation) := by
  rw [checkedBinaryAtMachine, unitsAtMachine_eq, unitsAtMachine_eq, checkedBinaryAt,
    Machine.lift_bind]
  refine Machine.lift_bind_congr fun left hleft => ?_
  rw [Machine.lift_bind]
  refine Machine.lift_bind_congr fun right hright => ?_
  obtain ⟨ln, ld⟩ := left
  obtain ⟨rn, rd⟩ := right
  obtain ⟨hld, hldvd⟩ := unitsAt_bounds hleft
  obtain ⟨hrd, hrdvd⟩ := unitsAt_bounds hright
  have hthree := lt_of_three_terms time.timebase.numerator_fits other.timebase.numerator_fits
    target.denominator_fits
  have hpos : 0 < time.timebase.numerator * other.timebase.numerator * target.denominator :=
    Nat.mul_pos (Nat.mul_pos time.timebase.numerator_pos other.timebase.numerator_pos)
      target.denominator_pos
  have hcommon := commonDenominator_bounds hld hrd hldvd hrdvd hpos hthree
  have hg : (0 : Int) < Int.gcd ld rd := by
    exact_mod_cast Int.gcd_pos_of_ne_zero_right _ hrd.ne'
  have hle : ∀ {d : Int} {term : Nat}, d ∣ (term * target.denominator : Nat) → 0 < d →
      term < 4294967296 → 0 < term → InI128 d := by
    intro d term hdvd hd hterm htermpos
    have hbound := Int.le_of_dvd (by exact_mod_cast Nat.mul_pos htermpos target.denominator_pos) hdvd
    have hmul : term * target.denominator ≤ 4294967295 * 4294967295 :=
      Nat.mul_le_mul (by omega) (by have := target.denominator_fits; omega)
    rw [inI128_iff]
    omega
  have hldfits := hle hldvd hld time.timebase.numerator_fits time.timebase.numerator_pos
  have hrdfits := hle hrdvd hrd other.timebase.numerator_fits other.timebase.numerator_pos
  simp only [gcd128_of_nonneg hld.le hrd.le, div128_eq hrdfits hg, div128_eq hldfits hg, pure_bind]
  rw [Machine.lift_bind]
  refine Machine.lift_bind_congr fun leftUnits _ => ?_
  rw [Machine.lift_bind]
  refine Machine.lift_bind_congr fun rightUnits _ => ?_
  rw [Machine.lift_bind]
  refine Machine.lift_bind_congr fun numerator hnumerator => ?_
  rw [Machine.lift_bind]
  refine Machine.lift_bind_congr fun denominator hdenominator => ?_
  rw [okOr_eq_ok] at hnumerator hdenominator
  rw [← checkedI128_eq_some hdenominator] at hcommon
  exact divideTimeMachine_eq (inI128_of_checkedI128 hnumerator) hcommon.1 fun _ =>
    inI128_doubled hcommon.1 hcommon.2

/-! ## Results -/

theorem checkedRescale_rounds (h : time.checkedRescale target rounding = .ok result) :
    result.timebase = target ∧ rounding.Rounds (time.seconds / target.unit) result.value := by
  unfold checkedRescale at h
  split at h
  · rename_i htb
    cases h
    refine ⟨htb, ?_⟩
    have hself : time.seconds / target.unit = time.value := by
      rw [seconds_of_timebase_eq htb, mul_div_cancel_right₀ _ target.unit_pos.ne']
    rw [hself]
    exact rounding.rounds_intCast time.value
  · obtain ⟨hpos, -, -⟩ := clocks_bounds time.timebase target
    obtain ⟨hrounds, htb⟩ := divideTime_rounds hpos h
    refine ⟨htb, ?_⟩
    rwa [← unitsFraction_div]

theorem checkedBinaryAt_rounds {operation : BinaryTimeOperation}
    (h : time.checkedBinaryAt other target rounding operation = .ok result) :
    result.timebase = target ∧
      rounding.Rounds (operation.onSeconds time.seconds other.seconds / target.unit)
        result.value := by
  obtain ⟨numerator, denominator, hpos, hquotient, hdiv⟩ := checkedBinaryAt_quotient h
  obtain ⟨hrounds, htb⟩ := divideTime_rounds hpos hdiv
  exact ⟨htb, hquotient ▸ hrounds⟩

/-! ## The contract -/

/-- The machine computes without overflowing; what it returns is rounded from the exact value. -/
def ExactOrError (computation : Machine RationalTime) (target : Timebase) (rounding : TimeRounding)
    (instant : ℚ) : Prop :=
  ∃ outcome, computation.Yields outcome ∧ ∀ result : RationalTime, outcome = .ok result →
    result.timebase = target ∧ rounding.Rounds (instant / target.unit) result.value

/-- For every two coordinates, target and policy: conversion, addition and subtraction return an
error or the exact rational result rounded by the policy, none of their 128-bit steps overflows, and
comparison is the order of the rational instants, which makes it a total order up to physical
equality. -/
theorem time_arithmetic_exact (time other : RationalTime) (target : Timebase)
    (rounding : TimeRounding) :
    ExactOrError (time.checkedRescaleMachine target rounding) target rounding time.seconds ∧
      ExactOrError (time.checkedBinaryAtMachine other target rounding .add) target rounding
        (time.seconds + other.seconds) ∧
      ExactOrError (time.checkedBinaryAtMachine other target rounding .subtract) target rounding
        (time.seconds - other.seconds) ∧
      (time.compareMachine other).Yields (.ok (Ord.compare time.seconds other.seconds)) ∧
      (time ≈ other ↔ time.seconds = other.seconds) ∧
      (time < other ↔ time.seconds < other.seconds) ∧
      (time ≤ time ∧ (time ≤ other ∨ other ≤ time) ∧ (time ≤ other → other ≤ time → time ≈ other) ∧
        ∀ third : RationalTime, time ≤ other → other ≤ third → time ≤ third) := by
  refine ⟨⟨time.checkedRescale target rounding, ?_, fun result h => checkedRescale_rounds h⟩,
    ⟨time.checkedBinaryAt other target rounding .add, ?_,
      fun result h => checkedBinaryAt_rounds h⟩,
    ⟨time.checkedBinaryAt other target rounding .subtract, ?_,
      fun result h => checkedBinaryAt_rounds h⟩, ?_, equiv_iff_seconds, lt_iff_seconds,
    ?_, ?_, ?_, ?_⟩
  · rw [checkedRescaleMachine_eq]
    exact Machine.yields_lift _
  · rw [checkedBinaryAtMachine_eq]
    exact Machine.yields_lift _
  · rw [checkedBinaryAtMachine_eq]
    exact Machine.yields_lift _
  · rw [compareMachine_eq, compare_eq_compare_seconds]
    exact Machine.yields_lift (.ok _)
  · exact le_iff_seconds.2 le_rfl
  · rw [le_iff_seconds, le_iff_seconds]
    exact le_total _ _
  · rw [le_iff_seconds, le_iff_seconds, equiv_iff_seconds]
    exact le_antisymm
  · intro third
    rw [le_iff_seconds, le_iff_seconds, le_iff_seconds]
    exact le_trans

/-! ## The order of coordinates -/

/-- Coordinates of any two timebases compare as the instants they name, and a range holds the
coordinates of the half-open interval it names. -/
theorem order_is_physical (left right : RationalTime) (range : TimeRange) :
    (left < right ↔ left.seconds < right.seconds) ∧
      (left ≤ right ↔ left.seconds ≤ right.seconds) ∧
      (left ≈ right ↔ left.seconds = right.seconds) ∧
      (left = right ↔ left.timebase = right.timebase ∧ left ≈ right) ∧
      (range.contains left = true ↔ range.start.seconds ≤ left.seconds ∧
        left.seconds < range.start.seconds + range.duration.seconds) ∧
      (range.isEmpty = true ↔ ∀ time : RationalTime, range.contains time = false) := by
  refine ⟨lt_iff_seconds, le_iff_seconds, equiv_iff_seconds, ⟨?_, ?_⟩, ?_, ⟨?_, ?_⟩⟩
  · rintro rfl
    exact ⟨rfl, equiv_iff_seconds.2 rfl⟩
  · rintro ⟨htimebase, hsame⟩
    exact ext_of_seconds htimebase (equiv_iff_seconds.1 hsame)
  · rw [TimeRange.contains_iff_seconds, TimeRange.seconds_endExclusive]
  · intro hempty time
    rw [TimeRange.isEmpty_iff_seconds] at hempty
    refine Bool.eq_false_iff.2 fun hin => ?_
    rw [TimeRange.contains_iff_seconds, TimeRange.seconds_endExclusive] at hin
    linarith [hin.1, hin.2]
  · intro hnone
    have hstart := hnone range.start
    by_contra hfull
    have hlt := TimeRange.start_lt_end_iff.2 (Bool.eq_false_iff.2 hfull)
    rw [TimeRange.contains_iff_seconds.2 ⟨le_rfl, hlt⟩] at hstart
    cases hstart

end RationalTime

end Core
end Superi

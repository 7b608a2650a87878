import Mathlib
import Superi.Core.Error

/-!
# Time — exact coordinates in rational timebases

Time is a signed 64-bit coordinate in an explicit rational timebase.  Every conversion goes through
128-bit integers and is checked, so a result is exact or an error.

The bounds and relations the source's constructors establish are fields here: a `Timebase` is
reduced, a coordinate fits `i64`, and the end of a `TimeRange` is representable.

`seconds` gives the physical instant as a rational number.  It is the meaning every later
module reasons with: physical comparison is comparison of seconds, and a successful exact operation
computes the corresponding operation on seconds.
-/

namespace Superi
namespace Core

open Result

/-! ## Machine ranges -/

def i64Min : Int := -9223372036854775808
def i64Max : Int := 9223372036854775807
def i128Min : Int := -170141183460469231731687303715884105728
def i128Max : Int := 170141183460469231731687303715884105727

/-- The value is representable as `i64`. -/
def InI64 (value : Int) : Prop := i64Min ≤ value ∧ value ≤ i64Max

instance (value : Int) : Decidable (InI64 value) := inferInstanceAs (Decidable (_ ∧ _))

/-- Bounded machine words are compared as integers. -/
instance instDecidableLTWord {p : Int → Prop} : DecidableLT (Subtype p) := fun a b => Int.decLt a.1 b.1

/-- A 128-bit intermediate result, absent on overflow. -/
def checkedI128 (value : Int) : Option Int :=
  if i128Min ≤ value ∧ value ≤ i128Max then some value else none

theorem checkedI128_eq_some {value result : Int} (h : checkedI128 value = some result) :
    result = value := by
  unfold checkedI128 at h
  split at h
  · exact (Option.some.inj h).symm
  · cases h

theorem inI64_zero : InI64 0 := by decide

theorem inI64_one : InI64 1 := by decide

theorem inI64_five : InI64 5 := by decide

theorem inI64_hundred : InI64 100 := by decide

theorem zero_lt_word : 0 < 18446744073709551616 := by decide

theorem one_lt_word : 1 < 18446744073709551616 := by decide

/-! ## Errors -/

def invalidTime (operation message : String) : Error :=
  (Error.new .invalidInput .userCorrectable message).withContext ⟨"superi-core.time", operation⟩

def overflowTime (operation : String) : Error :=
  invalidTime operation "time value exceeds the supported coordinate range"

/-! ## Timebases -/

/-- A reduced positive rational count of units per second. -/
structure Timebase where
  numerator : Nat
  denominator : Nat
  numerator_pos : 0 < numerator
  denominator_pos : 0 < denominator
  numerator_fits : numerator < 4294967296
  denominator_fits : denominator < 4294967296
  reduced : Nat.Coprime numerator denominator
  deriving Repr

theorem Timebase.fields_injective : Function.Injective fun x : Timebase =>
    (x.numerator, x.denominator) := by
  rintro ⟨⟩ ⟨⟩ h
  simpa using h

instance : DecidableEq Timebase := Timebase.fields_injective.decidableEq

namespace Timebase

theorem reducedNumerator_fits {numerator : Nat} (denominator : Nat)
    (h : numerator < 4294967296) : numerator / Nat.gcd numerator denominator < 4294967296 :=
  lt_of_le_of_lt (Nat.div_le_self _ _) h

theorem reducedDenominator_fits (numerator : Nat) {denominator : Nat}
    (h : denominator < 4294967296) : denominator / Nat.gcd numerator denominator < 4294967296 :=
  lt_of_le_of_lt (Nat.div_le_self _ _) h

/-- Create a timebase from two `u32` values, reduced to canonical form. -/
def new (numerator denominator : Nat) (hn : numerator < 4294967296)
    (hd : denominator < 4294967296) : Except Error Timebase :=
  if hn0 : numerator = 0 then
    .error (invalidTime "create_timebase" "timebase numerator must be greater than zero")
  else if hd0 : denominator = 0 then
    .error (invalidTime "create_timebase" "timebase denominator must be greater than zero")
  else
    have hg : 0 < Nat.gcd numerator denominator :=
      Nat.gcd_pos_of_pos_left _ (Nat.pos_of_ne_zero hn0)
    .ok {
      numerator := numerator / Nat.gcd numerator denominator
      denominator := denominator / Nat.gcd numerator denominator
      numerator_pos :=
        Nat.div_pos (Nat.le_of_dvd (Nat.pos_of_ne_zero hn0) (Nat.gcd_dvd_left _ _)) hg
      denominator_pos :=
        Nat.div_pos (Nat.le_of_dvd (Nat.pos_of_ne_zero hd0) (Nat.gcd_dvd_right _ _)) hg
      numerator_fits := reducedNumerator_fits denominator hn
      denominator_fits := reducedDenominator_fits numerator hd
      reduced := Nat.coprime_div_gcd_div_gcd hg }

theorem one_fits : 1 < 4294967296 := by decide

/-- An integral number of units per second. -/
def integer (unitsPerSecond : Nat) (hpos : 0 < unitsPerSecond)
    (hfits : unitsPerSecond < 4294967296) : Timebase :=
  { numerator := unitsPerSecond
    denominator := 1
    numerator_pos := hpos
    denominator_pos := Nat.one_pos
    numerator_fits := hfits
    denominator_fits := one_fits
    reduced := Nat.coprime_one_right _ }

/-! The rates the rest of the development builds clocks from. -/

theorem pos_24 : 0 < 24 := by decide

theorem fits_24 : 24 < 4294967296 := by decide

theorem pos_1000 : 0 < 1000 := by decide

theorem fits_1000 : 1000 < 4294967296 := by decide

theorem pos_48000 : 0 < 48000 := by decide

theorem fits_48000 : 48000 < 4294967296 := by decide

/-- The physical length of one unit, in seconds. -/
def unit (timebase : Timebase) : ℚ :=
  timebase.denominator / timebase.numerator

theorem unit_pos (timebase : Timebase) : 0 < timebase.unit := by
  have hn : (0 : ℚ) < timebase.numerator := by exact_mod_cast timebase.numerator_pos
  have hd : (0 : ℚ) < timebase.denominator := by exact_mod_cast timebase.denominator_pos
  exact div_pos hd hn

end Timebase

/-- The explicit rounding rule for conversion between discrete timebases. -/
inductive TimeRounding
  | exact
  | floor
  | ceil
  | towardZero
  | nearestTiesEven
  deriving DecidableEq, Repr

/-! ## Coordinates -/

/-- A signed coordinate in an explicit rational timebase. -/
structure RationalTime where
  value : Int
  timebase : Timebase
  inRange : InI64 value
  deriving DecidableEq, Repr

namespace RationalTime

def zero (timebase : Timebase) : RationalTime :=
  { value := 0, timebase, inRange := inI64_zero }

/-- `i64::try_from` followed by construction in the given timebase. -/
def tryFrom (value : Int) (timebase : Timebase) (error : Error) : Except Error RationalTime :=
  if h : InI64 value then .ok { value, timebase, inRange := h } else .error error

/-- Physical order: both coordinates brought over the common denominator. -/
def compare (left right : RationalTime) : Ordering :=
  Ord.compare (left.value * left.timebase.denominator * right.timebase.numerator)
    (right.value * right.timebase.denominator * left.timebase.numerator)

instance : LT RationalTime := ⟨fun left right => left.compare right = .lt⟩
instance : LE RationalTime := ⟨fun left right => left.compare right ≠ .gt⟩

/-- `==` of the source: equality of physical time, not of the stored pair. -/
instance : HasEquiv RationalTime := ⟨fun left right => left.compare right = .eq⟩

instance (left right : RationalTime) : Decidable (left < right) :=
  inferInstanceAs (Decidable (left.compare right = .lt))
instance (left right : RationalTime) : Decidable (left ≤ right) :=
  inferInstanceAs (Decidable (left.compare right ≠ .gt))
instance (left right : RationalTime) : Decidable (left ≈ right) :=
  inferInstanceAs (Decidable (left.compare right = .eq))

def isZero (time : RationalTime) : Bool := time.value == 0
def isNegative (time : RationalTime) : Bool := decide (time.value < 0)

/-- The physical instant. -/
def seconds (time : RationalTime) : ℚ :=
  time.value * time.timebase.unit

@[simp] theorem zero_timebase (timebase : Timebase) : (zero timebase).timebase = timebase := rfl

@[simp] theorem seconds_zero (timebase : Timebase) : (zero timebase).seconds = 0 := by
  simp [zero, seconds]

theorem tryFrom_eq_ok {value : Int} {timebase : Timebase} {error : Error} {time : RationalTime} :
    tryFrom value timebase error = .ok time ↔ time.value = value ∧ time.timebase = timebase := by
  unfold tryFrom
  split
  · rename_i h
    constructor
    · intro heq
      cases heq
      exact ⟨rfl, rfl⟩
    · rintro ⟨rfl, rfl⟩
      rfl
  · rename_i h
    constructor
    · intro heq
      cases heq
    · rintro ⟨rfl, rfl⟩
      exact absurd time.inRange h

theorem compare_eq_compare_seconds (left right : RationalTime) :
    left.compare right = Ord.compare left.seconds right.seconds := by
  have hl : (0 : ℚ) < left.timebase.numerator := by exact_mod_cast left.timebase.numerator_pos
  have hr : (0 : ℚ) < right.timebase.numerator := by exact_mod_cast right.timebase.numerator_pos
  -- both sides compare the same fractions, multiplied by the two positive numerators
  have hleft : left.seconds * (left.timebase.numerator * right.timebase.numerator) =
      ((left.value * left.timebase.denominator * right.timebase.numerator : Int) : ℚ) := by
    simp only [seconds, Timebase.unit]
    push_cast
    field_simp
  have hright : right.seconds * (left.timebase.numerator * right.timebase.numerator) =
      ((right.value * right.timebase.denominator * left.timebase.numerator : Int) : ℚ) := by
    simp only [seconds, Timebase.unit]
    push_cast
    field_simp
  have hpos : (0 : ℚ) < left.timebase.numerator * right.timebase.numerator := mul_pos hl hr
  unfold compare
  rcases lt_trichotomy left.seconds right.seconds with h | h | h
  · rw [compare_lt_iff_lt.2 h, compare_lt_iff_lt]
    have := mul_lt_mul_of_pos_right h hpos
    rw [hleft, hright] at this
    exact_mod_cast this
  · rw [compare_eq_iff_eq.2 h, compare_eq_iff_eq]
    have := congrArg (· * ((left.timebase.numerator : ℚ) * right.timebase.numerator)) h
    simp only [hleft, hright] at this
    exact_mod_cast this
  · rw [compare_gt_iff_gt.2 h, compare_gt_iff_gt]
    have := mul_lt_mul_of_pos_right h hpos
    rw [hleft, hright] at this
    exact_mod_cast this

theorem lt_iff_seconds {left right : RationalTime} : left < right ↔ left.seconds < right.seconds := by
  change left.compare right = .lt ↔ _
  rw [compare_eq_compare_seconds, compare_lt_iff_lt]

theorem le_iff_seconds {left right : RationalTime} : left ≤ right ↔ left.seconds ≤ right.seconds := by
  change left.compare right ≠ .gt ↔ _
  rw [compare_eq_compare_seconds, compare_le_iff_le]

theorem equiv_iff_seconds {left right : RationalTime} :
    left ≈ right ↔ left.seconds = right.seconds := by
  change left.compare right = .eq ↔ _
  rw [compare_eq_compare_seconds, compare_eq_iff_eq]

theorem seconds_of_timebase_eq {time : RationalTime} {timebase : Timebase}
    (h : time.timebase = timebase) : time.seconds = time.value * timebase.unit := by
  rw [← h, seconds]

/-- In one timebase a coordinate is determined by its instant. -/
theorem ext_of_seconds {left right : RationalTime} (htb : left.timebase = right.timebase)
    (hsec : left.seconds = right.seconds) : left = right := by
  have hu : right.timebase.unit ≠ 0 := ne_of_gt right.timebase.unit_pos
  have hv : (left.value : ℚ) = right.value := by
    rw [seconds, seconds, htb] at hsec
    exact mul_right_cancel₀ hu hsec
  have hv' : left.value = right.value := by exact_mod_cast hv
  cases left
  cases right
  simp_all

theorem value_le_iff_seconds {left right : RationalTime} (htb : left.timebase = right.timebase) :
    left.value ≤ right.value ↔ left.seconds ≤ right.seconds := by
  rw [seconds, seconds, htb, mul_le_mul_iff_left₀ right.timebase.unit_pos, Int.cast_le]

theorem isNegative_iff_seconds {time : RationalTime} :
    time.isNegative = true ↔ time.seconds < 0 := by
  have hu := time.timebase.unit_pos
  have hmul : time.value * time.timebase.unit < 0 * time.timebase.unit ↔ (time.value : ℚ) < 0 :=
    mul_lt_mul_iff_left₀ hu
  rw [zero_mul] at hmul
  rw [isNegative, decide_eq_true_iff, seconds, hmul, Int.cast_lt_zero]

/-! ## Conversion -/

/-- Round the quotient of two 128-bit integers (`denominator > 0`) into an `i64` coordinate.
Division truncates toward zero, as `/` and `%` do on `i128`. -/
def divideTime (numerator denominator : Int) (rounding : TimeRounding) (operation : String)
    (target : Timebase) : Except Error RationalTime :=
  let quotient := numerator.tdiv denominator
  let remainder := numerator.tmod denominator
  let doubled : Int := remainder.natAbs * 2
  match rounding with
  | .exact =>
      if remainder ≠ 0 then
        .error (invalidTime operation "time conversion is not exact at the requested timebase")
      else
        tryFrom quotient target (overflowTime operation)
  | .floor =>
      tryFrom (if remainder < 0 then quotient - 1 else quotient) target (overflowTime operation)
  | .ceil =>
      tryFrom (if remainder > 0 then quotient + 1 else quotient) target (overflowTime operation)
  | .towardZero => tryFrom quotient target (overflowTime operation)
  | .nearestTiesEven =>
      let rounded :=
        match Ord.compare doubled denominator with
        | .lt => quotient
        | .gt => quotient + numerator.sign
        | .eq => if quotient.tmod 2 = 0 then quotient else quotient + numerator.sign
      tryFrom rounded target (overflowTime operation)

/-- Convert the coordinate to another timebase using an explicit policy. -/
def checkedRescale (time : RationalTime) (target : Timebase) (rounding : TimeRounding) :
    Except Error RationalTime :=
  if time.timebase = target then
    .ok time
  else
    -- both products stay inside `i128`: `|value| ≤ 2^63` and the other factors are below `2^32`
    divideTime (time.value * time.timebase.denominator * target.numerator)
      (time.timebase.numerator * target.denominator) rounding "rescale_time" target

/-- The reduced fraction of `target` units this coordinate amounts to. -/
def unitsAt (time : RationalTime) (target : Timebase) : Except Error (Int × Int) := do
  let scaled ← okOr (checkedI128 (time.value * time.timebase.denominator))
    (overflowTime "convert_time")
  let numerator ← okOr (checkedI128 (scaled * target.numerator)) (overflowTime "convert_time")
  let denominator ← okOr (checkedI128 (time.timebase.numerator * target.denominator))
    (overflowTime "convert_time")
  let commonDivisor : Int := Int.gcd numerator denominator
  pure (numerator.tdiv commonDivisor, denominator.tdiv commonDivisor)

/-- The two binary operations on coordinates, with their operation codes. -/
inductive BinaryTimeOperation
  | add
  | subtract
  deriving DecidableEq, Repr

def BinaryTimeOperation.name : BinaryTimeOperation → String
  | .add => "add_time"
  | .subtract => "subtract_time"

def BinaryTimeOperation.apply : BinaryTimeOperation → Int → Int → Int
  | .add, left, right => left + right
  | .subtract, left, right => left - right

def checkedBinaryAt (time other : RationalTime) (resultTimebase : Timebase)
    (rounding : TimeRounding) (operation : BinaryTimeOperation) : Except Error RationalTime := do
  let (leftNumerator, leftDenominator) ← unitsAt time resultTimebase
  let (rightNumerator, rightDenominator) ← unitsAt other resultTimebase
  let commonDivisor : Int := Int.gcd leftDenominator rightDenominator
  let leftMultiplier := rightDenominator.tdiv commonDivisor
  let rightMultiplier := leftDenominator.tdiv commonDivisor
  let left ← okOr (checkedI128 (leftNumerator * leftMultiplier)) (overflowTime operation.name)
  let right ← okOr (checkedI128 (rightNumerator * rightMultiplier)) (overflowTime operation.name)
  let numerator ← okOr (checkedI128 (operation.apply left right)) (overflowTime operation.name)
  let denominator ← okOr (checkedI128 (leftDenominator * leftMultiplier))
    (overflowTime operation.name)
  divideTime numerator denominator rounding operation.name resultTimebase

def checkedAddAt (time other : RationalTime) (resultTimebase : Timebase)
    (rounding : TimeRounding) : Except Error RationalTime :=
  time.checkedBinaryAt other resultTimebase rounding .add

def checkedSubAt (time other : RationalTime) (resultTimebase : Timebase)
    (rounding : TimeRounding) : Except Error RationalTime :=
  time.checkedBinaryAt other resultTimebase rounding .subtract

/-! ## Meaning of the exact operations -/

theorem divideTime_exact_eq_ok {numerator denominator : Int} {operation : String}
    {target : Timebase} {time : RationalTime} :
    divideTime numerator denominator .exact operation target = .ok time ↔
      denominator ∣ numerator ∧ time.value = numerator.tdiv denominator ∧
        time.timebase = target := by
  unfold divideTime
  by_cases h : numerator.tmod denominator = 0
  · simp [h, tryFrom_eq_ok, Int.dvd_of_tmod_eq_zero h]
  · have hd : ¬ denominator ∣ numerator := fun hd => h (Int.tmod_eq_zero_of_dvd hd)
    simp [h, hd]

/-- The value an exact division returns is the rational quotient. -/
theorem divideTime_exact_value {numerator denominator : Int} {operation : String}
    {target : Timebase} {time : RationalTime} (hd : denominator ≠ 0)
    (h : divideTime numerator denominator .exact operation target = .ok time) :
    (time.value : ℚ) = numerator / denominator ∧ time.timebase = target := by
  obtain ⟨hdvd, hvalue, htb⟩ := divideTime_exact_eq_ok.1 h
  refine ⟨?_, htb⟩
  have hmul : denominator * numerator.tdiv denominator = numerator := Int.mul_tdiv_cancel' hdvd
  have hq : (denominator : ℚ) ≠ 0 := by exact_mod_cast hd
  rw [hvalue, eq_div_iff hq, mul_comm]
  exact_mod_cast hmul

/-- An exact conversion keeps the instant and installs the requested timebase. -/
theorem checkedRescale_spec {time result : RationalTime} {target : Timebase}
    (h : time.checkedRescale target .exact = .ok result) :
    result.seconds = time.seconds ∧ result.timebase = target := by
  unfold checkedRescale at h
  split at h
  · rename_i htb
    cases h
    exact ⟨rfl, htb⟩
  · have hn : (time.timebase.numerator : ℚ) ≠ 0 := by
      exact_mod_cast time.timebase.numerator_pos.ne'
    have htn : (target.numerator : ℚ) ≠ 0 := by exact_mod_cast target.numerator_pos.ne'
    have htd : (target.denominator : ℚ) ≠ 0 := by exact_mod_cast target.denominator_pos.ne'
    have hden : ((time.timebase.numerator : Int) * target.denominator) ≠ 0 := by
      have h₁ := time.timebase.numerator_pos
      have h₂ := target.denominator_pos
      positivity
    obtain ⟨hvalue, htb⟩ := divideTime_exact_value hden h
    refine ⟨?_, htb⟩
    rw [seconds_of_timebase_eq htb, hvalue, seconds, Timebase.unit, Timebase.unit]
    push_cast
    field_simp

/-- Dividing two integers by their gcd, stated by what the quotients multiply to. -/
theorem gcd_quotients (n : Int) {d : Int} (hd : 0 < d) :
    ∃ g : Int, g = Int.gcd n d ∧ 0 < g ∧ g * n.tdiv g = n ∧ g * d.tdiv g = d ∧ 0 < d.tdiv g := by
  refine ⟨Int.gcd n d, rfl, ?_, Int.mul_tdiv_cancel' (Int.gcd_dvd_left _ _),
    Int.mul_tdiv_cancel' (Int.gcd_dvd_right _ _), ?_⟩
  · exact_mod_cast Int.gcd_pos_of_ne_zero_right _ hd.ne'
  · have hmul : (Int.gcd n d : Int) * d.tdiv (Int.gcd n d) = d :=
      Int.mul_tdiv_cancel' (Int.gcd_dvd_right _ _)
    by_contra hle
    have := mul_nonpos_of_nonneg_of_nonpos (Int.natCast_nonneg (Int.gcd n d)) (not_lt.1 hle)
    omega

/-- The fraction `unitsAt` returns is the coordinate measured in target units. -/
theorem unitsAt_spec {time : RationalTime} {target : Timebase} {n d : Int}
    (h : time.unitsAt target = .ok (n, d)) :
    0 < d ∧ (n : ℚ) / d = time.seconds / target.unit := by
  unfold unitsAt at h
  simp only [bind_eq_ok, okOr_eq_ok, pure_eq_ok, Prod.mk.injEq] at h
  obtain ⟨scaled, hscaled, numerator, hnumerator, denominator, hdenominator, hn, hd⟩ := h
  have hscaled' := checkedI128_eq_some hscaled
  have hnumerator' := checkedI128_eq_some hnumerator
  have hdenominator' := checkedI128_eq_some hdenominator
  have hpos : 0 < denominator := by
    have h₁ := time.timebase.numerator_pos
    have h₂ := target.denominator_pos
    rw [hdenominator']
    positivity
  obtain ⟨g, hg, hgpos, hnmul, hdmul, hdpos⟩ := gcd_quotients numerator hpos
  rw [← hg] at hn hd
  rw [hn] at hnmul
  rw [hd] at hdmul hdpos
  refine ⟨hdpos, ?_⟩
  have hreduce : (n : ℚ) / d = numerator / denominator := by
    have hgq : (g : ℚ) ≠ 0 := by exact_mod_cast hgpos.ne'
    rw [← hnmul, ← hdmul]
    push_cast
    rw [mul_div_mul_left _ _ hgq]
  have htn : (target.numerator : ℚ) ≠ 0 := by exact_mod_cast target.numerator_pos.ne'
  have htd : (target.denominator : ℚ) ≠ 0 := by exact_mod_cast target.denominator_pos.ne'
  have hn0 : (time.timebase.numerator : ℚ) ≠ 0 := by
    exact_mod_cast time.timebase.numerator_pos.ne'
  rw [hreduce, hnumerator', hscaled', hdenominator', seconds, Timebase.unit, Timebase.unit]
  push_cast
  field_simp

/-- The operation on instants. -/
def BinaryTimeOperation.onSeconds : BinaryTimeOperation → ℚ → ℚ → ℚ
  | .add, left, right => left + right
  | .subtract, left, right => left - right

/-- What is rounded at the end of a binary operation is the exact result, measured in target
units. -/
theorem checkedBinaryAt_quotient {time other result : RationalTime} {target : Timebase}
    {rounding : TimeRounding} {operation : BinaryTimeOperation}
    (h : time.checkedBinaryAt other target rounding operation = .ok result) :
    ∃ numerator denominator : Int, 0 < denominator ∧
      (numerator : ℚ) / denominator =
        operation.onSeconds time.seconds other.seconds / target.unit ∧
      divideTime numerator denominator rounding operation.name target = .ok result := by
  unfold checkedBinaryAt at h
  simp only [bind_eq_ok, okOr_eq_ok, Prod.exists] at h
  obtain ⟨ln, ld, hleft, rn, rd, hright, left, hl, right, hr, numerator, hnum, denominator, hden,
    hdiv⟩ := h
  obtain ⟨hldpos, hlq⟩ := unitsAt_spec hleft
  obtain ⟨hrdpos, hrq⟩ := unitsAt_spec hright
  have hl' := checkedI128_eq_some hl
  have hr' := checkedI128_eq_some hr
  have hnum' := checkedI128_eq_some hnum
  have hden' := checkedI128_eq_some hden
  -- the two multipliers, by what they multiply to
  obtain ⟨g, hg, hgpos, hrmul, hlmul, hlmpos⟩ := gcd_quotients ld hrdpos
  obtain ⟨lm, hlm⟩ : ∃ lm : Int, lm = rd.tdiv g := ⟨_, rfl⟩
  obtain ⟨rm, hrm⟩ : ∃ rm : Int, rm = ld.tdiv g := ⟨_, rfl⟩
  rw [← hg, ← hlm] at hl' hden'
  rw [← hg, ← hrm] at hr'
  rw [← hlm] at hlmul hlmpos
  rw [← hrm] at hrmul
  have hdenpos : 0 < denominator := by
    rw [hden']
    exact mul_pos hldpos hlmpos
  refine ⟨numerator, denominator, hdenpos, ?_, hdiv⟩
  have hldq : (ld : ℚ) ≠ 0 := by exact_mod_cast hldpos.ne'
  have hlmq : (lm : ℚ) ≠ 0 := by exact_mod_cast hlmpos.ne'
  -- both operands, over the common denominator the source computes
  have hleftq : (left : ℚ) / denominator = time.seconds / target.unit := by
    rw [← hlq, hl', hden']
    push_cast
    rw [mul_div_mul_right _ _ hlmq]
  have hrightq : (right : ℚ) / denominator = other.seconds / target.unit := by
    have hcross : (ld : ℚ) * lm = rd * rm := by
      rw [← hlmul, ← hrmul]
      push_cast
      ring
    have hrmq : (rm : ℚ) ≠ 0 := by
      intro hzero
      rw [← hrmul] at hldq
      push_cast at hldq
      exact hldq (by rw [hzero, mul_zero])
    rw [← hrq, hr', hden']
    push_cast
    rw [hcross, mul_div_mul_right _ _ hrmq]
  cases operation with
  | add =>
      simp only [BinaryTimeOperation.apply] at hnum'
      rw [hnum', BinaryTimeOperation.onSeconds]
      push_cast
      rw [add_div, hleftq, hrightq, add_div]
  | subtract =>
      simp only [BinaryTimeOperation.apply] at hnum'
      rw [hnum', BinaryTimeOperation.onSeconds]
      push_cast
      rw [sub_div, hleftq, hrightq, sub_div]

/-- An exact binary operation computes the operation on instants. -/
theorem checkedBinaryAt_spec {time other result : RationalTime} {target : Timebase}
    {operation : BinaryTimeOperation}
    (h : time.checkedBinaryAt other target .exact operation = .ok result) :
    result.timebase = target ∧
      result.seconds = operation.onSeconds time.seconds other.seconds := by
  obtain ⟨numerator, denominator, hpos, hquotient, hdiv⟩ := checkedBinaryAt_quotient h
  obtain ⟨hvalue, htb⟩ := divideTime_exact_value hpos.ne' hdiv
  refine ⟨htb, ?_⟩
  rw [seconds_of_timebase_eq htb, hvalue, hquotient, div_mul_cancel₀ _ target.unit_pos.ne']

theorem checkedAddAt_spec {time other result : RationalTime} {target : Timebase}
    (h : time.checkedAddAt other target .exact = .ok result) :
    result.timebase = target ∧ result.seconds = time.seconds + other.seconds :=
  checkedBinaryAt_spec h

theorem checkedSubAt_spec {time other result : RationalTime} {target : Timebase}
    (h : time.checkedSubAt other target .exact = .ok result) :
    result.timebase = target ∧ result.seconds = time.seconds - other.seconds :=
  checkedBinaryAt_spec h

end RationalTime

/-! ## Durations -/

/-- A nonnegative amount of time, restricted to the signed coordinate domain. -/
structure Duration where
  value : Nat
  timebase : Timebase
  fits : (value : Int) ≤ i64Max
  deriving DecidableEq, Repr

namespace Duration

def new (value : Nat) (timebase : Timebase) : Except Error Duration :=
  if h : (value : Int) ≤ i64Max then .ok { value, timebase, fits := h }
  else .error (overflowTime "create_duration")

def isZero (duration : Duration) : Bool := duration.value == 0

theorem inI64 (duration : Duration) : InI64 (duration.value : Int) :=
  ⟨le_trans (by decide) (Int.natCast_nonneg duration.value), duration.fits⟩

def rationalTime (duration : Duration) : RationalTime :=
  { value := duration.value, timebase := duration.timebase, inRange := duration.inI64 }

instance : LT Duration := ⟨fun left right => left.rationalTime < right.rationalTime⟩

/-- `==` of the source: equal physical length. -/
instance : HasEquiv Duration := ⟨fun left right => left.rationalTime ≈ right.rationalTime⟩

instance (left right : Duration) : Decidable (left < right) :=
  inferInstanceAs (Decidable (left.rationalTime < right.rationalTime))
instance (left right : Duration) : Decidable (left ≈ right) :=
  inferInstanceAs (Decidable (left.rationalTime ≈ right.rationalTime))

/-- The physical length. -/
def seconds (duration : Duration) : ℚ := duration.rationalTime.seconds

def checkedRescale (duration : Duration) (target : Timebase) (rounding : TimeRounding) :
    Except Error Duration := do
  let converted ← duration.rationalTime.checkedRescale target rounding
  if converted.value < 0 then
    .error (invalidTime "rescale_duration" "duration became negative")
  else
    new converted.value.toNat target

@[simp] theorem rationalTime_timebase (duration : Duration) :
    duration.rationalTime.timebase = duration.timebase := rfl

@[simp] theorem seconds_rationalTime (duration : Duration) :
    duration.rationalTime.seconds = duration.seconds := rfl

theorem seconds_nonneg (duration : Duration) : 0 ≤ duration.seconds :=
  have hvalue : (0 : Int) ≤ duration.rationalTime.value := Int.natCast_nonneg duration.value
  mul_nonneg (by exact_mod_cast hvalue) (le_of_lt duration.timebase.unit_pos)

theorem seconds_eq_units (duration : Duration) :
    duration.seconds = (duration.value : ℤ) * duration.timebase.unit := by
  simp [seconds, rationalTime, RationalTime.seconds]

theorem new_eq_ok {value : Nat} {timebase : Timebase} {duration : Duration} :
    new value timebase = .ok duration ↔
      duration.value = value ∧ duration.timebase = timebase := by
  unfold new
  split
  · constructor
    · intro heq
      cases heq
      exact ⟨rfl, rfl⟩
    · rintro ⟨rfl, rfl⟩
      rfl
  · rename_i h
    constructor
    · intro heq
      cases heq
    · rintro ⟨rfl, rfl⟩
      exact absurd duration.fits h

theorem isZero_iff_seconds {duration : Duration} :
    duration.isZero = true ↔ duration.seconds = 0 := by
  have hu := ne_of_gt duration.timebase.unit_pos
  simp [isZero, seconds, rationalTime, RationalTime.seconds, hu]

theorem equiv_iff_seconds {left right : Duration} :
    left ≈ right ↔ left.seconds = right.seconds :=
  RationalTime.equiv_iff_seconds

theorem lt_iff_seconds {left right : Duration} : left < right ↔ left.seconds < right.seconds :=
  RationalTime.lt_iff_seconds

theorem value_le_iff_seconds {left right : Duration} (htb : left.timebase = right.timebase) :
    left.value ≤ right.value ↔ left.seconds ≤ right.seconds := by
  have h : left.rationalTime.value ≤ right.rationalTime.value ↔
      left.rationalTime.seconds ≤ right.rationalTime.seconds :=
    RationalTime.value_le_iff_seconds htb
  rwa [show left.rationalTime.value ≤ right.rationalTime.value ↔ left.value ≤ right.value from
    Int.ofNat_le] at h

theorem ext_of_seconds {left right : Duration} (htb : left.timebase = right.timebase)
    (hsec : left.seconds = right.seconds) : left = right := by
  have h : left.rationalTime = right.rationalTime := RationalTime.ext_of_seconds htb hsec
  have hv : left.value = right.value := by
    have := congrArg RationalTime.value h
    simpa [rationalTime] using this
  cases left
  cases right
  simp_all

theorem checkedRescale_spec {duration result : Duration} {target : Timebase}
    (h : duration.checkedRescale target .exact = .ok result) :
    result.seconds = duration.seconds ∧ result.timebase = target := by
  unfold checkedRescale at h
  rw [bind_eq_ok] at h
  obtain ⟨converted, hconv, h⟩ := h
  obtain ⟨hsec, htb⟩ := RationalTime.checkedRescale_spec hconv
  split at h
  · cases h
  · rename_i hneg
    obtain ⟨hvalue, hrtb⟩ := new_eq_ok.1 h
    refine ⟨?_, hrtb⟩
    have heq : result.rationalTime = converted := by
      have hv : (result.value : Int) = converted.value := by omega
      cases converted
      simp_all [rationalTime]
    rw [← seconds_rationalTime, heq, hsec, seconds_rationalTime]

end Duration

/-! ## Ranges -/

/-- A half-open interval whose end is representable. -/
structure TimeRange where
  start : RationalTime
  duration : Duration
  oneTimebase : start.timebase = duration.timebase
  endFits : InI64 (start.value + duration.value)
  deriving DecidableEq, Repr

namespace TimeRange

def new (start : RationalTime) (duration : Duration) : Except Error TimeRange :=
  if htb : start.timebase = duration.timebase then
    if h : InI64 (start.value + duration.value) then
      .ok { start, duration, oneTimebase := htb, endFits := h }
    else
      .error (overflowTime "create_time_range")
  else
    .error (invalidTime "create_time_range" "range start and duration must use the same timebase")

def timebase (range : TimeRange) : Timebase := range.start.timebase

def isEmpty (range : TimeRange) : Bool := range.duration.isZero

/-- The exclusive end.  The source re-checks the addition the constructor already checked. -/
def endExclusive (range : TimeRange) : RationalTime :=
  { value := range.start.value + range.duration.value
    timebase := range.timebase
    inRange := range.endFits }

def fromStartEnd (start endExclusive : RationalTime) : Except Error TimeRange := do
  rejectIf (start.timebase ≠ endExclusive.timebase)
    (invalidTime "create_time_range_from_end" "range endpoints must use the same timebase")
  rejectIf (¬ InI64 (endExclusive.value - start.value)) (overflowTime "create_time_range_from_end")
  rejectIf (endExclusive.value - start.value < 0)
    (invalidTime "create_time_range_from_end" "range end must not occur before its start")
  let duration ← Duration.new (endExclusive.value - start.value).toNat start.timebase
  new start duration

def contains (range : TimeRange) (time : RationalTime) : Bool :=
  decide (range.start ≤ time ∧ time < range.endExclusive)

def checkedRescale (range : TimeRange) (target : Timebase) (rounding : TimeRounding) :
    Except Error TimeRange := do
  let start ← range.start.checkedRescale target rounding
  let rangeEnd ← range.endExclusive.checkedRescale target rounding
  fromStartEnd start rangeEnd

/-- `==` of the source: both ends agree as physical time. -/
instance : HasEquiv TimeRange :=
  ⟨fun left right => left.start ≈ right.start ∧ left.duration ≈ right.duration⟩

instance (left right : TimeRange) : Decidable (left ≈ right) :=
  inferInstanceAs (Decidable (_ ∧ _))

@[simp] theorem endExclusive_timebase (range : TimeRange) :
    range.endExclusive.timebase = range.timebase := rfl

@[simp] theorem start_timebase (range : TimeRange) : range.start.timebase = range.timebase := rfl

@[simp] theorem duration_timebase (range : TimeRange) :
    range.duration.timebase = range.timebase := range.oneTimebase.symm

theorem seconds_endExclusive (range : TimeRange) :
    range.endExclusive.seconds = range.start.seconds + range.duration.seconds := by
  have hd : range.duration.seconds = range.duration.value * range.timebase.unit := by
    rw [← Duration.seconds_rationalTime, RationalTime.seconds, Duration.rationalTime_timebase,
      duration_timebase]
    simp [Duration.rationalTime]
  rw [hd, RationalTime.seconds, RationalTime.seconds, endExclusive_timebase, start_timebase]
  simp [endExclusive, add_mul]

theorem start_le_end (range : TimeRange) : range.start.seconds ≤ range.endExclusive.seconds := by
  have := range.duration.seconds_nonneg
  rw [seconds_endExclusive]
  linarith

theorem isEmpty_iff_seconds {range : TimeRange} :
    range.isEmpty = true ↔ range.duration.seconds = 0 :=
  Duration.isZero_iff_seconds

theorem start_lt_end_iff {range : TimeRange} :
    range.start.seconds < range.endExclusive.seconds ↔ range.isEmpty = false := by
  have hnonneg := range.duration.seconds_nonneg
  have hiff : range.isEmpty = true ↔ range.duration.seconds = 0 := isEmpty_iff_seconds
  rw [seconds_endExclusive]
  constructor
  · intro hlt
    by_contra hne
    have := hiff.1 (by simpa using hne)
    linarith
  · intro hne
    rcases lt_or_eq_of_le hnonneg with hpos | hzero
    · linarith
    · rw [hiff.2 hzero.symm] at hne
      cases hne

theorem new_eq_ok {start : RationalTime} {duration : Duration} {range : TimeRange} :
    new start duration = .ok range ↔ range.start = start ∧ range.duration = duration := by
  unfold new
  constructor
  · intro h
    split at h
    · split at h
      · cases h
        exact ⟨rfl, rfl⟩
      · cases h
    · cases h
  · rintro ⟨rfl, rfl⟩
    simp [range.endFits]

theorem fromStartEnd_spec {start endExclusive : RationalTime} {range : TimeRange}
    (h : fromStartEnd start endExclusive = .ok range) :
    range.start = start ∧ range.endExclusive = endExclusive := by
  unfold fromStartEnd at h
  simp only [bind_eq_ok, rejectIf_eq_ok, Duration.new_eq_ok, new_eq_ok] at h
  obtain ⟨_, htb, _, _, _, hneg, duration, ⟨hvalue, hdtb⟩, hstart, hduration⟩ := h
  have htb' : start.timebase = endExclusive.timebase := not_not.1 htb
  refine ⟨hstart, ?_⟩
  have hv : range.start.value + (range.duration.value : Int) = endExclusive.value := by
    rw [hstart, hduration, hvalue]
    omega
  cases endExclusive with
  | mk value timebase inRange =>
      simp only [TimeRange.endExclusive, TimeRange.timebase, RationalTime.mk.injEq, hstart]
      simp only [hstart] at hv
      exact ⟨hv, htb'⟩

theorem contains_iff_seconds {range : TimeRange} {time : RationalTime} :
    range.contains time = true ↔
      range.start.seconds ≤ time.seconds ∧ time.seconds < range.endExclusive.seconds := by
  rw [contains, decide_eq_true_iff, RationalTime.le_iff_seconds, RationalTime.lt_iff_seconds]

theorem checkedRescale_spec {range result : TimeRange} {target : Timebase}
    (h : range.checkedRescale target .exact = .ok result) :
    result.timebase = target ∧ result.start.seconds = range.start.seconds ∧
      result.endExclusive.seconds = range.endExclusive.seconds := by
  unfold checkedRescale at h
  simp only [bind_eq_ok] at h
  obtain ⟨start, hstart, rangeEnd, hend, h⟩ := h
  obtain ⟨hs, hstb⟩ := RationalTime.checkedRescale_spec hstart
  obtain ⟨he, -⟩ := RationalTime.checkedRescale_spec hend
  obtain ⟨hrs, hre⟩ := fromStartEnd_spec h
  refine ⟨?_, by rw [hrs, hs], by rw [hre, he]⟩
  rw [← start_timebase, hrs, hstb]

end TimeRange

end Core
end Superi

import Mathlib
import Superi.Core.TimeExact
import Superi.Engine.TransportCadence

/-!
# TransportCadenceLaws — the two mappings of the cadence are adjoint

Counting steps rounds an exact quotient down and scheduling a step rounds an exact product up, both
against one length of a step.  What is counted at a clock position is therefore what is due there.
A deadline depends on its step alone, and steps are counted through every loop and every drop, so no
rounding is carried from one frame to the next.
-/

namespace Superi
namespace Engine

open Core Editorial Result Rounding

/-! ## Arithmetic -/

theorem checkedProduct_eq_some {first : Int} {factors : List Int} {value : Int}
    (h : checkedProduct first factors = some value) : value = first * factors.prod := by
  induction factors generalizing first with
  | nil =>
      cases h
      simp
  | cons factor rest ih =>
      obtain ⟨product, hproduct, hrest⟩ := Option.bind_eq_some_iff.1 h
      rw [ih hrest, checkedI128_eq_some hproduct, List.prod_cons, mul_assoc]

theorem checkedProduct_fits {first : Int} {factors : List Int} {value : Int} (hfirst : InI128 first)
    (h : checkedProduct first factors = some value) : InI128 value := by
  induction factors generalizing first with
  | nil =>
      cases h
      exact hfirst
  | cons factor rest ih =>
      obtain ⟨product, hproduct, hrest⟩ := Option.bind_eq_some_iff.1 h
      exact ih (inI128_of_checkedI128 hproduct) hrest

theorem checkedU64_eq_some {value result : Nat} :
    checkedU64 value = some result ↔ value < 18446744073709551616 ∧ value = result := by
  unfold checkedU64
  split <;> simp_all

variable {numerator denominator delta : Int}

theorem ceilDivPositive_isCeil
    (h : (ceilDivPositive numerator denominator).run = some (.ok delta)) :
    0 < denominator ∧ IsCeil (numerator / denominator) delta := by
  simp only [ceilDivPositive, Machine.run_bind_eq_ok, Machine.run_lift_eq_ok, rejectIf_eq_ok,
    okOr_eq_ok] at h
  obtain ⟨-, hsign, adjustment, hadjustment, value, hvalue, hdiv⟩ := h
  obtain ⟨hn, hd⟩ : 0 ≤ numerator ∧ 0 < denominator := by omega
  refine ⟨hd, ?_⟩
  have hfits := inI128_of_checkedI128 hvalue
  obtain rfl := checkedI128_eq_some hadjustment
  obtain rfl := checkedI128_eq_some hvalue
  rw [div128_eq hfits hd] at hdiv
  cases hdiv
  exact isCeil_div_of_nonneg hn hd

theorem ceilDivPositive_ne_none : (ceilDivPositive numerator denominator).run ≠ none := by
  intro h
  simp only [ceilDivPositive, Machine.run_bind_eq_none, Machine.run_lift_ne_none, false_or,
    Machine.run_lift_eq_ok, rejectIf_eq_ok, okOr_eq_ok] at h
  obtain ⟨-, hsign, adjustment, -, value, hvalue, hdiv⟩ := h
  rw [div128_eq (inI128_of_checkedI128 hvalue) (by omega)] at hdiv
  cases hdiv

namespace PlaybackTransport

variable {transport next : PlaybackTransport}

/-! ## How long a step lasts -/

/-- The exact length of a cadence step. -/
def stepSeconds (transport : PlaybackTransport) : ℚ :=
  transport.frameAnchor.timebase.unit / |transport.rate.ratio|

theorem numerator_ne_zero (transport : PlaybackTransport) : transport.rate.numerator ≠ 0 := by
  have h := transport.rate_moves
  rwa [PlaybackRate.isFreeze, beq_eq_false_iff_ne] at h

theorem abs_ratio (rate : PlaybackRate) : |rate.ratio| = rate.numerator.natAbs / rate.denominator := by
  rw [PlaybackRate.ratio, abs_div, Nat.abs_cast, Nat.cast_natAbs, Int.cast_abs]

theorem stepSeconds_pos (transport : PlaybackTransport) : 0 < transport.stepSeconds := by
  have hd : (0 : ℚ) < transport.rate.denominator := by exact_mod_cast transport.rate.denominator_pos
  have hn : (0 : ℚ) < transport.rate.numerator.natAbs := by
    exact_mod_cast Int.natAbs_pos.2 transport.numerator_ne_zero
  rw [stepSeconds, abs_ratio]
  exact div_pos transport.frameAnchor.timebase.unit_pos (div_pos hn hd)

/-- The length of a step in units of a clock, as the quotient both mappings divide by. -/
theorem stepSeconds_div_unit (transport : PlaybackTransport) (clockTimebase : Timebase) :
    transport.stepSeconds / clockTimebase.unit =
      (transport.frameAnchor.timebase.denominator * clockTimebase.numerator *
          transport.rate.denominator) /
        (transport.frameAnchor.timebase.numerator * clockTimebase.denominator *
          transport.rate.numerator.natAbs) := by
  have hfn : (transport.frameAnchor.timebase.numerator : ℚ) ≠ 0 := by
    exact_mod_cast transport.frameAnchor.timebase.numerator_pos.ne'
  have hcn : (clockTimebase.numerator : ℚ) ≠ 0 := by
    exact_mod_cast clockTimebase.numerator_pos.ne'
  have hcd : (clockTimebase.denominator : ℚ) ≠ 0 := by
    exact_mod_cast clockTimebase.denominator_pos.ne'
  have hrd : (transport.rate.denominator : ℚ) ≠ 0 := by
    exact_mod_cast transport.rate.denominator_pos.ne'
  have hrn : (transport.rate.numerator.natAbs : ℚ) ≠ 0 := by
    exact_mod_cast (Int.natAbs_pos.2 transport.numerator_ne_zero).ne'
  rw [stepSeconds, abs_ratio, Timebase.unit, Timebase.unit]
  field_simp

/-! ## Counting rounds down -/

section Counting

variable {elapsed steps : Int} {clockTimebase : Timebase} {clock : RationalTime}

/-- A product overflows, or the exact quotient is truncated. -/
theorem elapsedSteps_cases (transport : PlaybackTransport) (elapsed : Int)
    (clockTimebase : Timebase) :
    (∃ error, (transport.elapsedSteps elapsed clockTimebase).run = some (.error error)) ∨
      ∃ numerator denominator : Int, 0 < denominator ∧ InI128 numerator ∧
        (0 ≤ elapsed → 0 ≤ numerator) ∧
        (numerator : ℚ) / denominator =
          elapsed / (transport.stepSeconds / clockTimebase.unit) ∧
        (transport.elapsedSteps elapsed clockTimebase).run =
          some (.ok (numerator.tdiv denominator)) := by
  simp only [elapsedSteps]
  cases hnumerator : checkedProduct elapsed [clockTimebase.denominator,
      transport.frameAnchor.timebase.numerator, transport.rate.numerator.natAbs] with
  | none => exact .inl ⟨_, rfl⟩
  | some numerator =>
      cases hdenominator : checkedProduct clockTimebase.numerator
          [transport.frameAnchor.timebase.denominator, transport.rate.denominator] with
      | none => exact .inl ⟨_, rfl⟩
      | some denominator =>
          have hnv := checkedProduct_eq_some hnumerator
          have hdv := checkedProduct_eq_some hdenominator
          simp only [List.prod_cons, List.prod_nil, mul_one] at hnv hdv
          have hd : 0 < denominator := by
            have h₁ := clockTimebase.numerator_pos
            have h₂ := transport.frameAnchor.timebase.denominator_pos
            have h₃ := transport.rate.denominator_pos
            rw [hdv]
            positivity
          have hfits : InI128 numerator := by
            obtain ⟨product, hproduct, hrest⟩ := Option.bind_eq_some_iff.1 hnumerator
            exact checkedProduct_fits (inI128_of_checkedI128 hproduct) hrest
          refine .inr ⟨numerator, denominator, hd, hfits, ?_, ?_, ?_⟩
          · intro hpos
            rw [hnv]
            positivity
          · rw [stepSeconds_div_unit, div_div_eq_mul_div, hnv, hdv]
            simp only [Int.cast_mul, Int.cast_natCast]
            congr 1 <;> ring
          · simp only [okOr, Machine.lift_ok, pure_bind, div128_eq hfits hd]
            rfl

theorem elapsedSteps_isFloor (hpos : 0 ≤ elapsed)
    (h : (transport.elapsedSteps elapsed clockTimebase).run = some (.ok steps)) :
    IsFloor (elapsed / (transport.stepSeconds / clockTimebase.unit)) steps := by
  obtain ⟨error, herror⟩ | ⟨numerator, denominator, hd, -, hn, hquotient, hrun⟩ :=
    transport.elapsedSteps_cases elapsed clockTimebase
  · rw [herror] at h
    cases h
  · rw [hrun] at h
    cases h
    have hfloor := isFloor_div hd (n := numerator)
    rwa [if_neg (not_lt.2 (Int.tmod_nonneg denominator (hn hpos))), hquotient] at hfloor

theorem elapsedSteps_ne_none : (transport.elapsedSteps elapsed clockTimebase).run ≠ none := by
  obtain ⟨error, herror⟩ | ⟨numerator, denominator, -, -, -, -, hrun⟩ :=
    transport.elapsedSteps_cases elapsed clockTimebase
  · rw [herror]
    exact Option.some_ne_none _
  · rw [hrun]
    exact Option.some_ne_none _

theorem inI128_elapsedSteps
    (h : (transport.elapsedSteps elapsed clockTimebase).run = some (.ok steps)) : InI128 steps := by
  obtain ⟨error, herror⟩ | ⟨numerator, denominator, hd, hfits, -, -, hrun⟩ :=
    transport.elapsedSteps_cases elapsed clockTimebase
  · rw [herror] at h
    cases h
  · rw [hrun] at h
    cases h
    exact inI128_tdiv hfits hd

/-- What is counted at a clock position: nothing up to the anchor, and after it the exact number of
steps rounded down. -/
theorem intendedSteps_spec {counted : Option Int} (htb : clock.timebase = transport.clockAnchor.timebase)
    (h : (transport.intendedSteps clock).run = some (.ok counted)) :
    (clock.value ≤ transport.clockAnchor.value ∧ counted = none) ∨
      (transport.clockAnchor.value < clock.value ∧ ∃ steps, counted = some steps ∧
        IsFloor ((clock.value - transport.clockAnchor.value) /
          (transport.stepSeconds / transport.clockAnchor.timebase.unit)) steps) := by
  simp only [intendedSteps, Machine.run_bind_eq_ok, Machine.run_lift_eq_ok,
    RationalTime.tryFrom_eq_ok] at h
  obtain ⟨elapsed, ⟨helapsed, -⟩, h⟩ := h
  rw [helapsed, htb] at h
  split at h
  · rename_i hle
    cases h
    exact .inl ⟨by omega, rfl⟩
  · rename_i hgt
    obtain ⟨steps, hsteps, hsome⟩ := Machine.run_map_eq_ok.1 h
    have hfloor := elapsedSteps_isFloor (by omega) hsteps
    push_cast at hfloor
    exact .inr ⟨by omega, steps, hsome.symm, hfloor⟩

theorem inI128_intendedSteps
    (h : (transport.intendedSteps clock).run = some (.ok (some steps))) : InI128 steps := by
  simp only [intendedSteps, Machine.run_bind_eq_ok] at h
  obtain ⟨elapsed, -, h⟩ := h
  split at h
  · cases h
  · obtain ⟨counted, hcounted, hsome⟩ := Machine.run_map_eq_ok.1 h
    cases hsome
    exact inI128_elapsedSteps hcounted

theorem intendedSteps_ne_none : (transport.intendedSteps clock).run ≠ none := by
  intro h
  simp only [intendedSteps, Machine.run_bind_eq_none, Machine.run_lift_ne_none, false_or] at h
  obtain ⟨elapsed, -, h⟩ := h
  split at h
  · cases h
  · exact elapsedSteps_ne_none (Machine.run_map_eq_none.1 h)

end Counting

/-! ## Scheduling rounds up -/

section Scheduling

variable {m n step : Nat} {clock due nextDue frame : RationalTime} {duration : Duration}

theorem dueClockForStep_isCeil (h : (transport.dueClockForStep n).run = some (.ok due)) :
    due.timebase = transport.clockAnchor.timebase ∧
      IsCeil (n * (transport.stepSeconds / transport.clockAnchor.timebase.unit) +
        transport.clockAnchor.value) due.value := by
  simp only [dueClockForStep, Machine.run_bind_eq_ok, Machine.run_lift_eq_ok, okOr_eq_ok,
    RationalTime.tryFrom_eq_ok] at h
  obtain ⟨numerator, hnumerator, denominator, hdenominator, delta, hdelta, value, hvalue, hdue,
    htb⟩ := h
  have hnv := checkedProduct_eq_some hnumerator
  have hdv := checkedProduct_eq_some hdenominator
  simp only [List.prod_cons, List.prod_nil, mul_one] at hnv hdv
  obtain ⟨-, hceil⟩ := ceilDivPositive_isCeil hdelta
  have hquotient : (numerator : ℚ) / denominator =
      n * (transport.stepSeconds / transport.clockAnchor.timebase.unit) := by
    rw [stepSeconds_div_unit, ← mul_div_assoc, hnv, hdv]
    simp only [Int.cast_mul, Int.cast_natCast]
    congr 1 <;> ring
  rw [hquotient] at hceil
  refine ⟨htb, ?_⟩
  rw [hdue, checkedI128_eq_some hvalue, add_comm transport.clockAnchor.value]
  exact isCeil_add.2 hceil

theorem dueClockForStep_ne_none : (transport.dueClockForStep n).run ≠ none := by
  intro h
  simp only [dueClockForStep, Machine.run_bind_eq_none, Machine.run_lift_ne_none, false_or] at h
  obtain ⟨numerator, -, denominator, -, h⟩ := h
  rcases h with h | ⟨delta, -, value, -, h⟩
  · exact ceilDivPositive_ne_none h
  · exact h

/-- A deadline is the first clock unit that is not before the exact instant of its step. -/
theorem dueClockForStep_isLeast (h : (transport.dueClockForStep n).run = some (.ok due)) :
    IsLeast {value : Int | transport.clockAnchor.seconds + n * transport.stepSeconds ≤
      value * transport.clockAnchor.timebase.unit} due.value := by
  obtain ⟨-, hceil⟩ := dueClockForStep_isCeil h
  have hunit := transport.clockAnchor.timebase.unit_pos
  have hiff : ∀ value : Int, transport.clockAnchor.seconds + n * transport.stepSeconds ≤
      value * transport.clockAnchor.timebase.unit ↔ due.value ≤ value := by
    intro value
    rw [hceil.le_iff, ← mul_div_assoc, div_add' _ _ _ hunit.ne', div_le_iff₀ hunit,
      RationalTime.seconds, add_comm]
  exact ⟨(hiff _).2 le_rfl, fun value hvalue => (hiff value).1 hvalue⟩

/-- Later steps are not due earlier. -/
theorem dueClockForStep_mono (hm : (transport.dueClockForStep m).run = some (.ok due))
    (hn : (transport.dueClockForStep n).run = some (.ok nextDue)) (h : m ≤ n) :
    due.value ≤ nextDue.value := by
  obtain ⟨hleast, -⟩ := dueClockForStep_isLeast hn
  have hcast : (m : ℚ) ≤ n := by exact_mod_cast h
  have hmul := mul_le_mul_of_nonneg_right hcast transport.stepSeconds_pos.le
  have hearlier : transport.clockAnchor.seconds + m * transport.stepSeconds ≤
      transport.clockAnchor.seconds + n * transport.stepSeconds := add_le_add_right hmul _
  exact (dueClockForStep_isLeast hm).2 (le_trans hearlier hleast)

/-- The first step is due at the anchor. -/
theorem dueClockForStep_zero (h : (transport.dueClockForStep 0).run = some (.ok due)) :
    due.value = transport.clockAnchor.value := by
  obtain ⟨-, hceil⟩ := dueClockForStep_isCeil h
  rw [Nat.cast_zero, zero_mul, zero_add] at hceil
  exact hceil.unique (TimeRounding.rounds_intCast .ceil _)

/-- Every other step is due after the anchor. -/
theorem clockAnchor_lt_due (h : (transport.dueClockForStep n).run = some (.ok due)) (hn : 0 < n) :
    transport.clockAnchor.value < due.value := by
  obtain ⟨-, hceil⟩ := dueClockForStep_isCeil h
  by_contra hle
  have hbound := hceil.le_iff.1 (not_lt.1 hle)
  have hcast : (0 : ℚ) < n := by exact_mod_cast hn
  have hpos := mul_pos hcast
    (div_pos transport.stepSeconds_pos transport.clockAnchor.timebase.unit_pos)
  linarith

/-! ## Adjunction -/

/-- After the anchor a step is counted exactly where it is due. -/
theorem le_steps_iff {steps : Int} (htb : clock.timebase = transport.clockAnchor.timebase)
    (hcount : (transport.intendedSteps clock).run = some (.ok (some steps)))
    (hdue : (transport.dueClockForStep n).run = some (.ok due)) :
    (n : Int) ≤ steps ↔ due.value ≤ clock.value := by
  obtain ⟨-, hnone⟩ | ⟨-, counted, hsome, hfloor⟩ := intendedSteps_spec htb hcount
  · cases hnone
  · cases hsome
    obtain ⟨-, hceil⟩ := dueClockForStep_isCeil hdue
    have hlength := div_pos transport.stepSeconds_pos transport.clockAnchor.timebase.unit_pos
    calc (n : Int) ≤ steps
        ↔ ((n : Int) : ℚ) ≤ (clock.value - transport.clockAnchor.value) /
            (transport.stepSeconds / transport.clockAnchor.timebase.unit) := hfloor.le_iff
      _ ↔ n * (transport.stepSeconds / transport.clockAnchor.timebase.unit) +
            transport.clockAnchor.value ≤ (clock.value : ℚ) := by
          rw [le_div_iff₀ hlength, le_sub_iff_add_le, Int.cast_natCast]
      _ ↔ due.value ≤ clock.value := hceil.le_iff.symm

/-! ## Frames and their steps -/

theorem directionalDistance_eq_ok {origin last : RationalTime} {distance : Int} :
    transport.directionalDistance origin last = .ok distance ↔
      origin.timebase = last.timebase ∧ InI64 (last.value - origin.value) ∧
        InI64 ((last.value - origin.value) * transport.direction.sign) ∧
        (last.value - origin.value) * transport.direction.sign = distance := by
  simp only [directionalDistance, bind_eq_ok, rejectIf_eq_ok, pure_eq_ok, not_not,
    RationalTime.tryFrom_eq_ok]
  constructor
  · rintro ⟨-, htb, raw, ⟨hraw, -⟩, signed, ⟨hsigned, -⟩, rfl⟩
    have hfits := signed.inRange
    rw [hsigned, hraw] at hfits
    exact ⟨htb, hraw ▸ raw.inRange, hfits, by rw [hsigned, hraw]⟩
  · rintro ⟨htb, hraw, hsigned, rfl⟩
    exact ⟨(), htb, ⟨_, origin.timebase, hraw⟩, ⟨rfl, rfl⟩, ⟨_, origin.timebase, hsigned⟩, ⟨rfl, rfl⟩,
      rfl⟩

theorem cadenceStepFor_eq_ok : transport.cadenceStepFor frame = .ok step ↔
    transport.directionalDistance transport.frameAnchor frame =
        .ok ((step : Int) - transport.cadenceOffset) ∧
      transport.cadenceOffset ≤ step ∧ step < 18446744073709551616 := by
  simp only [cadenceStepFor, bind_eq_ok, rejectIf_eq_ok, okOr_eq_ok, checkedU64_eq_some]
  constructor
  · rintro ⟨steps, hsteps, -, hsign, hfits, rfl⟩
    have heq : ((transport.cadenceOffset + steps.toNat : Nat) : Int) - transport.cadenceOffset =
        steps := by omega
    rw [heq]
    exact ⟨hsteps, by omega, hfits⟩
  · rintro ⟨hsteps, hle, hfits⟩
    exact ⟨_, hsteps, (), by omega, by omega, by omega⟩

theorem dueClockFor_eq_ok : (transport.dueClockFor frame).run = some (.ok due) ↔
    ∃ step, transport.cadenceStepFor frame = .ok step ∧
      (transport.dueClockForStep step).run = some (.ok due) := by
  simp only [dueClockFor, Machine.run_bind_eq_ok, Machine.run_lift_eq_ok]

theorem dueClockFor_ne_none : (transport.dueClockFor frame).run ≠ none := by
  intro h
  simp only [dueClockFor, Machine.run_bind_eq_none, Machine.run_lift_ne_none, false_or] at h
  obtain ⟨step, -, h⟩ := h
  exact dueClockForStep_ne_none h

/-! ## Durations -/

/-- A frame stands from its deadline to that of the next step. -/
theorem presentationDurationFor_spec
    (h : (transport.presentationDurationFor frame due).run = some (.ok duration)) :
    ∃ step nextDue, transport.cadenceStepFor frame = .ok step ∧ step + 1 < 18446744073709551616 ∧
      (transport.dueClockForStep (step + 1)).run = some (.ok nextDue) ∧
      due.value + duration.value = nextDue.value ∧ duration.timebase = due.timebase := by
  simp only [presentationDurationFor, Machine.run_bind_eq_ok, Machine.run_lift_eq_ok, okOr_eq_ok,
    checkedU64_eq_some, RationalTime.tryFrom_eq_ok, rejectIf_eq_ok, Duration.new_eq_ok] at h
  obtain ⟨step, hstep, next, ⟨hfits, rfl⟩, nextDue, hnext, difference, ⟨hdifference, -⟩, -, hsign,
    hvalue, htb⟩ := h
  exact ⟨step, nextDue, hstep, hfits, hnext, by omega, htb⟩

theorem presentationDurationFor_ne_none :
    (transport.presentationDurationFor frame due).run ≠ none := by
  intro h
  simp only [presentationDurationFor, Machine.run_bind_eq_none, Machine.run_lift_ne_none, false_or,
    or_false, and_false, exists_false] at h
  obtain ⟨step, -, next, -, h⟩ := h
  exact dueClockForStep_ne_none h

/-- A frame asked for at its own deadline is never refused for a negative duration: it is given one
wherever the next deadline and the difference are representable. -/
theorem presentationDurationFor_complete (hstep : transport.cadenceStepFor frame = .ok step)
    (hfits : step + 1 < 18446744073709551616)
    (hdue : (transport.dueClockForStep step).run = some (.ok due))
    (hnext : (transport.dueClockForStep (step + 1)).run = some (.ok nextDue))
    (hdifference : InI64 (nextDue.value - due.value)) :
    ∃ duration, (transport.presentationDurationFor frame due).run = some (.ok duration) := by
  have hmono := dueClockForStep_mono hdue hnext (Nat.le_succ step)
  have hbound : (((nextDue.value - due.value).toNat : Nat) : Int) ≤ i64Max := by
    have hhigh := hdifference.2
    omega
  simp only [presentationDurationFor, Machine.run_bind_eq_ok, Machine.run_lift_eq_ok, okOr_eq_ok,
    checkedU64_eq_some, RationalTime.tryFrom_eq_ok, rejectIf_eq_ok, Duration.new_eq_ok]
  exact ⟨⟨_, due.timebase, hbound⟩, step, hstep, step + 1, ⟨hfits, rfl⟩, nextDue, hnext,
    ⟨_, due.timebase, hdifference⟩, ⟨rfl, rfl⟩, (), not_lt.2 (sub_nonneg.2 hmono), rfl, rfl⟩

/-- Durations of consecutive steps add up to the difference of the deadlines. -/
theorem sum_durations {frames : Nat → RationalTime} {dues : Nat → RationalTime}
    {durations : Nat → Duration} {first : Nat}
    (hframes : ∀ i, i < n → transport.cadenceStepFor (frames i) = .ok (first + i))
    (hdues : ∀ i, i ≤ n → (transport.dueClockForStep (first + i)).run = some (.ok (dues i)))
    (hdurations : ∀ i, i < n →
      (transport.presentationDurationFor (frames i) (dues i)).run = some (.ok (durations i))) :
    ((∑ i ∈ Finset.range n, (durations i).value : Nat) : Int) = (dues n).value - (dues 0).value := by
  induction n with
  | zero => simp
  | succ k ih =>
      obtain ⟨step, nextDue, hstep, -, hnext, hvalue, -⟩ :=
        presentationDurationFor_spec (hdurations k (Nat.lt_succ_self k))
      rw [hframes k (Nat.lt_succ_self k)] at hstep
      cases hstep
      have hlast := hdues (k + 1) le_rfl
      rw [← Nat.add_assoc, hnext] at hlast
      cases hlast
      rw [Finset.sum_range_succ]
      have hrest := ih (fun i hi => hframes i (by omega)) (fun i hi => hdues i (by omega))
        (fun i hi => hdurations i (by omega))
      omega

end Scheduling

/-! ## The intended frame -/

section Intended

variable {n : Nat} {steps : Int} {clock due frame shown : RationalTime}

theorem sign_cases (transport : PlaybackTransport) :
    transport.direction.sign = 1 ∨ transport.direction.sign = -1 := by
  cases transport.direction with
  | forward => exact .inl rfl
  | reverse => exact .inr rfl

/-- A range that is not empty ends after it starts. -/
theorem start_lt_end {range : TimeRange} (h : range.isEmpty = false) :
    range.start.value < range.endExclusive.value := by
  have hvalue : range.duration.value ≠ 0 := by
    simpa [TimeRange.isEmpty, Duration.isZero] using h
  change range.start.value < range.start.value + range.duration.value
  omega

theorem activeRange_nonempty (transport : PlaybackTransport) :
    transport.activeRange.isEmpty = false := by
  unfold activeRange
  cases hloop : transport.loopRange with
  | none => exact transport.bounds_nonempty
  | some range => exact transport.loop_nonempty range hloop

theorem clamp128_of_le {value low high : Int} (h : low ≤ high) :
    clamp128 value low high = pure (max low (min high value)) := by
  unfold clamp128
  rw [if_neg (not_lt.2 h)]
  congr 1
  split
  · omega
  · split <;> omega

theorem frameOfSteps_ne_none (hfits : InI128 steps) : (transport.frameOfSteps steps).run ≠ none := by
  intro h
  unfold frameOfSteps at h
  split at h
  · cases h
  · rename_i hle
    have hdifference : InI128 (steps - transport.cadenceOffset) := by
      rw [inI128_iff] at hfits ⊢
      omega
    rw [sub128, narrow_eq hdifference, pure_bind] at h
    simp only [Machine.run_bind_eq_none, Machine.run_lift_ne_none, false_or, and_false,
      exists_false, or_false, Machine.run_lift_eq_ok, RationalTime.tryFrom_eq_ok] at h
    obtain ⟨signed, -, intended, -, last, ⟨hlast, -⟩, h⟩ := h
    have hrange := start_lt_end transport.activeRange_nonempty
    rw [clamp128_of_le (by omega)] at h
    cases h

theorem intendedFrameAt_ne_none : (transport.intendedFrameAt clock).run ≠ none := by
  intro h
  rw [intendedFrameAt, Machine.run_bind_eq_none] at h
  rcases h with h | ⟨counted, hcounted, h⟩
  · exact intendedSteps_ne_none h
  · cases counted with
    | none => cases h
    | some steps => exact frameOfSteps_ne_none (inI128_intendedSteps hcounted) h

/-- Up to the anchor the frame anchored there is shown, after it the frame of the counted step. -/
theorem intendedFrameAt_cases (htb : clock.timebase = transport.clockAnchor.timebase)
    (h : (transport.intendedFrameAt clock).run = some (.ok shown)) :
    (clock.value ≤ transport.clockAnchor.value ∧ shown = transport.frameAnchor) ∨
      (transport.clockAnchor.value < clock.value ∧ ∃ steps,
        (transport.intendedSteps clock).run = some (.ok (some steps)) ∧
          (transport.frameOfSteps steps).run = some (.ok shown)) := by
  obtain ⟨counted, hcounted, hshown⟩ := Machine.run_bind_eq_ok.1 h
  obtain ⟨hle, rfl⟩ | ⟨hlt, steps, rfl, -⟩ := intendedSteps_spec htb hcounted
  · cases hshown
    exact .inl ⟨hle, rfl⟩
  · exact .inr ⟨hlt, steps, hcounted, hshown⟩

end Intended

/-! ## One event -/

/-- `next` runs on the same clock, at the same rate and over the same frames. -/
structure KeepsPace (transport next : PlaybackTransport) : Prop where
  clockAnchor_eq : next.clockAnchor = transport.clockAnchor
  rate_eq : next.rate = transport.rate
  timebase_eq : next.frameAnchor.timebase = transport.frameAnchor.timebase
  range_eq : next.activeRange = transport.activeRange

/-- What is scheduled is step `n`, at its deadline. -/
def StandsAt (transport : PlaybackTransport) (n : Nat) : Prop :=
  ∀ scheduled ∈ transport.scheduled,
    transport.cadenceStepFor scheduled.frame = .ok n ∧
      (transport.dueClockForStep n).run = some (.ok scheduled.dueClock) ∧
      ∃ duration, (transport.presentationDurationFor scheduled.frame
        scheduled.dueClock).run = some (.ok duration)

section Events

variable {n skipped : Nat} {frame due : RationalTime} {protection : FrameProtection}
  {presented scheduled : ScheduledFrame}

/-- Deadlines depend on the clock anchor, the rate and the two timebases alone. -/
theorem dueClockForStep_congr (hclock : next.clockAnchor = transport.clockAnchor)
    (hrate : next.rate = transport.rate)
    (htb : next.frameAnchor.timebase = transport.frameAnchor.timebase) :
    next.dueClockForStep n = transport.dueClockForStep n := by
  simp only [dueClockForStep, hclock, hrate, htb]

theorem KeepsPace.refl (transport : PlaybackTransport) : KeepsPace transport transport :=
  ⟨rfl, rfl, rfl, rfl⟩

theorem KeepsPace.trans {mid : PlaybackTransport} (hmid : KeepsPace transport mid)
    (hnext : KeepsPace mid next) : KeepsPace transport next where
  clockAnchor_eq := hnext.clockAnchor_eq.trans hmid.clockAnchor_eq
  rate_eq := hnext.rate_eq.trans hmid.rate_eq
  timebase_eq := hnext.timebase_eq.trans hmid.timebase_eq
  range_eq := hnext.range_eq.trans hmid.range_eq

theorem standsAt_of_none (h : transport.scheduled = none) : transport.StandsAt n := by
  intro scheduled hscheduled
  rw [h] at hscheduled
  cases hscheduled

theorem schedule_ne_none : (transport.schedule frame due protection).run ≠ none := by
  intro h
  simp only [schedule, Machine.run_bind_eq_none] at h
  obtain h | ⟨duration, -, h⟩ := h
  · exact presentationDurationFor_ne_none h
  · cases h

/-- A frame scheduled at its deadline is the scheduled step. -/
theorem schedule_standsAt (hstep : transport.cadenceStepFor frame = .ok n)
    (hdue : (transport.dueClockForStep n).run = some (.ok due))
    (h : (transport.schedule frame due protection).run = some (.ok next)) :
    KeepsPace transport next ∧ next.StandsAt n := by
  obtain ⟨duration, hduration, hnext⟩ := Machine.run_bind_eq_ok.1 h
  cases hnext
  refine ⟨⟨rfl, rfl, rfl, rfl⟩, ?_⟩
  intro scheduled hscheduled
  cases hscheduled
  exact ⟨hstep, hdue, duration, hduration⟩

/-- A frame that many steps further on has that step. -/
theorem cadenceStepFor_advance {target : RationalTime} {step k : Nat}
    (hframe : transport.cadenceStepFor frame = .ok n)
    (hvalue : target.value = frame.value + k * transport.direction.sign)
    (htarget : transport.cadenceStepFor target = .ok step) : step = n + k := by
  obtain ⟨hdistance, hoffset, -⟩ := cadenceStepFor_eq_ok.1 hframe
  obtain ⟨htargetDistance, hle, -⟩ := cadenceStepFor_eq_ok.1 htarget
  obtain ⟨-, -, -, hdistance⟩ := directionalDistance_eq_ok.1 hdistance
  obtain ⟨-, -, -, htargetDistance⟩ := directionalDistance_eq_ok.1 htargetDistance
  rw [hvalue] at htargetDistance
  rcases transport.sign_cases with hsign | hsign <;> rw [hsign] at hdistance htargetDistance <;>
    omega

theorem lastFrame_timebase {range : TimeRange} {error : Error}
    (h : lastFrame range error = .ok frame) : frame.timebase = range.timebase :=
  (RationalTime.tryFrom_eq_ok.1 h).2

theorem wrappedOf_timebase {range : TimeRange} (h : transport.wrappedOf range = .ok frame) :
    frame.timebase = range.timebase := by
  unfold wrappedOf at h
  split at h
  · cases h
    rfl
  · exact lastFrame_timebase h

/-- Starting over keeps the pace and counts on: the frame at which the loop starts over is the step
after the presented one. -/
theorem wrapAround_spec {wrapped : RationalTime}
    (hrange : wrapped.timebase = transport.frameAnchor.timebase)
    (hstep : transport.cadenceStepFor frame = .ok n)
    (h : transport.wrapAround frame wrapped = .ok next) :
    KeepsPace transport next ∧ next.cadenceStepFor wrapped = .ok (n + 1) := by
  unfold wrapAround at h
  split at h
  · obtain ⟨distance, hdistance, h⟩ := bind_eq_ok.1 h
    obtain ⟨_, hsign, h⟩ := bind_eq_ok.1 h
    split at h
    · rename_i hfits
      cases h
      rw [rejectIf_eq_ok] at hsign
      obtain ⟨hsame, hle, -⟩ := cadenceStepFor_eq_ok.1 hstep
      rw [hdistance] at hsame
      cases hsame
      have hoffset : transport.cadenceOffset + ((n : Int) - transport.cadenceOffset).toNat + 1 =
          n + 1 := by omega
      refine ⟨⟨rfl, rfl, hrange, rfl⟩, cadenceStepFor_eq_ok.2 ⟨?_, ?_, ?_⟩⟩
      · rw [directionalDistance_eq_ok, sub_self, zero_mul]
        simp only [hoffset, sub_self]
        exact ⟨trivial, inI64_zero, inI64_zero, trivial⟩
      · exact hoffset.le
      · omega
    · cases h
  · cases h

/-- After a presentation the next step is scheduled, or the range has ended. -/
theorem scheduleAfterPresentation_spec
    (h : (transport.scheduleAfterPresentation presented).run = some (.ok next))
    (hrange : transport.frameAnchor.timebase = transport.activeRange.timebase)
    (hnone : transport.scheduled = none)
    (hstep : transport.cadenceStepFor presented.frame = .ok n) :
    KeepsPace transport next ∧ next.StandsAt (n + 1) := by
  obtain ⟨boundary, -, h⟩ := Machine.run_bind_eq_ok.1 h
  split at h
  · split at h
    · cases h
      exact ⟨⟨rfl, rfl, rfl, rfl⟩, standsAt_of_none hnone⟩
    · rename_i loopRange hloop
      simp only [Machine.run_bind_eq_ok, Machine.run_lift_eq_ok] at h
      obtain ⟨wrapped, hwrapped, mid, hmid, nextDue, hdue, h⟩ := h
      have hactive : transport.activeRange = loopRange := by rw [activeRange, hloop]; rfl
      have htb : wrapped.timebase = transport.frameAnchor.timebase := by
        rw [wrappedOf_timebase hwrapped, hrange, hactive]
      obtain ⟨hpace, hwrappedStep⟩ := wrapAround_spec htb hstep hmid
      obtain ⟨step, hsame, hdue⟩ := dueClockFor_eq_ok.1 hdue
      rw [hwrappedStep] at hsame
      cases hsame
      obtain ⟨hpace', hstands⟩ := schedule_standsAt hwrappedStep hdue h
      exact ⟨hpace.trans hpace', hstands⟩
  · simp only [Machine.run_bind_eq_ok, Machine.run_lift_eq_ok, RationalTime.tryFrom_eq_ok] at h
    obtain ⟨target, ⟨hvalue, -⟩, due, hdue, h⟩ := h
    obtain ⟨step, htarget, hdue⟩ := dueClockFor_eq_ok.1 hdue
    have hadvance := cadenceStepFor_advance (k := 1) hstep (by omega) htarget
    subst hadvance
    exact schedule_standsAt htarget hdue h

theorem observePresented_spec
    (hrange : transport.frameAnchor.timebase = transport.activeRange.timebase)
    (hstands : transport.StandsAt n)
    (h : transport.observePresented.run = some (.ok next)) :
    KeepsPace transport next ∧ next.StandsAt (n + 1) := by
  unfold observePresented at h
  split at h
  · cases h
  · rename_i presented hscheduled
    obtain ⟨hstep, -, -⟩ := hstands presented hscheduled
    dsimp only at h
    split at h
    · obtain ⟨hpace, hnext⟩ := scheduleAfterPresentation_spec h hrange rfl hstep
      exact ⟨⟨hpace.1, hpace.2, hpace.3, hpace.4⟩, hnext⟩
    · cases h
      exact ⟨⟨rfl, rfl, rfl, rfl⟩, standsAt_of_none rfl⟩

theorem scheduleAfterPresentation_ne_none :
    (transport.scheduleAfterPresentation presented).run ≠ none := by
  intro h
  simp only [scheduleAfterPresentation, Machine.run_bind_eq_none, Machine.run_lift_ne_none,
    false_or] at h
  obtain ⟨boundary, -, h⟩ := h
  split at h
  · split at h
    · cases h
    · simp only [Machine.run_bind_eq_none, Machine.run_lift_ne_none, false_or] at h
      obtain ⟨wrapped, -, mid, -, h⟩ := h
      obtain h | ⟨due, -, h⟩ := h
      · exact dueClockFor_ne_none h
      · exact schedule_ne_none h
  · simp only [Machine.run_bind_eq_none, Machine.run_lift_ne_none, false_or] at h
    obtain ⟨target, -, h⟩ := h
    obtain h | ⟨due, -, h⟩ := h
    · exact dueClockFor_ne_none h
    · exact schedule_ne_none h

theorem observePresented_ne_none : transport.observePresented.run ≠ none := by
  intro h
  unfold observePresented at h
  split at h
  · cases h
  · dsimp only at h
    split at h
    · exact scheduleAfterPresentation_ne_none h
    · cases h

/-! ## Late frames -/

/-- Noting a forced presentation changes nothing a cadence depends on. -/
theorem noteForced_spec (transport : PlaybackTransport) :
    KeepsPace transport transport.noteForced ∧
      (∀ frame, transport.noteForced.cadenceStepFor frame = transport.cadenceStepFor frame) ∧
      (transport.StandsAt n → transport.noteForced.StandsAt n) := by
  unfold noteForced
  split
  · exact ⟨.refl transport, fun _ => rfl, id⟩
  · exact ⟨⟨rfl, rfl, rfl, rfl⟩, fun _ => rfl, id⟩

theorem countDropped_spec (transport : PlaybackTransport) (skipped maxConsecutive : Nat) :
    KeepsPace transport (transport.countDropped skipped maxConsecutive) ∧
      ∀ frame, (transport.countDropped skipped maxConsecutive).cadenceStepFor frame =
        transport.cadenceStepFor frame := by
  unfold countDropped
  dsimp only
  split
  · obtain ⟨hpace, hsteps, -⟩ := noteForced_spec (n := 0) _
    exact ⟨⟨hpace.1, hpace.2, hpace.3, hpace.4⟩, hsteps⟩
  · exact ⟨⟨rfl, rfl, rfl, rfl⟩, fun _ => rfl⟩

/-- Skipping ahead schedules the step that many further on. -/
theorem skipTo_spec {maxConsecutive : Nat}
    (hstep : transport.cadenceStepFor scheduled.frame = .ok n)
    (h : (transport.skipTo scheduled skipped maxConsecutive).run = some (.ok next)) :
    KeepsPace transport next ∧ next.StandsAt (n + skipped) := by
  simp only [skipTo, Machine.run_bind_eq_ok, Machine.run_lift_eq_ok, RationalTime.tryFrom_eq_ok] at h
  obtain ⟨target, ⟨hvalue, -⟩, boundary, -, due, hdue, h⟩ := h
  obtain ⟨step, htarget, hdue⟩ := dueClockFor_eq_ok.1 hdue
  obtain ⟨hpace, hstands⟩ := schedule_standsAt htarget hdue h
  obtain ⟨hdropped, hsteps⟩ := transport.countDropped_spec skipped maxConsecutive
  rw [hsteps] at htarget
  rw [← cadenceStepFor_advance hstep hvalue htarget]
  exact ⟨hdropped.trans hpace, hstands⟩

theorem skipTo_ne_none {maxConsecutive : Nat} :
    (transport.skipTo scheduled skipped maxConsecutive).run ≠ none := by
  intro h
  simp only [skipTo, Machine.run_bind_eq_none, Machine.run_lift_ne_none, false_or] at h
  obtain ⟨target, -, boundary, -, h⟩ := h
  obtain h | ⟨due, -, h⟩ := h
  · exact dueClockFor_ne_none h
  · exact schedule_ne_none h

theorem applyDropPolicy_spec {now : RationalTime} {result : PlaybackTransport × Nat}
    (hstands : transport.StandsAt n)
    (h : (transport.applyDropPolicy now).run = some (.ok result)) :
    KeepsPace transport result.1 ∧ result.1.StandsAt (n + result.2) := by
  unfold applyDropPolicy at h
  split at h
  · rename_i maxConsecutive scheduled _ _ hscheduled
    obtain ⟨hstep, -, -⟩ := hstands scheduled hscheduled
    split at h
    · simp only [Machine.run_bind_eq_ok] at h
      obtain ⟨desired, -, distance, -, h⟩ := h
      split at h
      · cases h
        exact ⟨.refl transport, hstands⟩
      · split at h
        · cases h
          obtain ⟨hpace, -, hnoted⟩ := transport.noteForced_spec (n := n)
          exact ⟨hpace, hnoted hstands⟩
        · obtain ⟨next, hnext, h⟩ := Machine.run_bind_eq_ok.1 h
          cases h
          exact skipTo_spec hstep hnext
    · cases h
      exact ⟨.refl transport, hstands⟩
  · cases h
    exact ⟨.refl transport, hstands⟩

theorem applyDropPolicy_ne_none {now : RationalTime} :
    (transport.applyDropPolicy now).run ≠ none := by
  intro h
  unfold applyDropPolicy at h
  split at h
  · split at h
    · simp only [Machine.run_bind_eq_none, Machine.run_lift_ne_none, false_or] at h
      obtain h | ⟨desired, -, distance, -, h⟩ := h
      · exact intendedFrameAt_ne_none h
      · split at h
        · cases h
        · split at h
          · cases h
          · obtain h | ⟨next, -, h⟩ := Machine.run_bind_eq_none.1 h
            · exact skipTo_ne_none h
            · cases h
    · cases h
  · cases h

/-! ## Whole runs -/

/-- One event keeps the pace and the count. -/
theorem cadenceEvent_spec {state result : PlaybackTransport × Nat} {event : CadenceEvent}
    (hrange : state.1.frameAnchor.timebase = state.1.activeRange.timebase)
    (hstands : state.1.StandsAt state.2)
    (h : (cadenceEvent state event).run = some (.ok result)) :
    KeepsPace state.1 result.1 ∧ result.1.StandsAt result.2 := by
  cases event with
  | presented =>
      obtain ⟨next, hnext, h⟩ := Machine.run_bind_eq_ok.1 h
      cases h
      exact observePresented_spec hrange hstands hnext
  | late now =>
      obtain ⟨⟨next, skipped⟩, hnext, h⟩ := Machine.run_bind_eq_ok.1 h
      cases h
      exact applyDropPolicy_spec hstands hnext

theorem cadenceEvent_ne_none (state : PlaybackTransport × Nat) (event : CadenceEvent) :
    (cadenceEvent state event).run ≠ none := by
  intro h
  cases event with
  | presented =>
      obtain h | ⟨next, -, h⟩ := Machine.run_bind_eq_none.1 h
      · exact observePresented_ne_none h
      · cases h
  | late now =>
      obtain h | ⟨next, -, h⟩ := Machine.run_bind_eq_none.1 h
      · exact applyDropPolicy_ne_none h
      · cases h

/-- In every run the scheduled frame is the counted step. -/
theorem run_standsAt {start last : PlaybackTransport} {events : List CadenceEvent} {steps : Nat}
    (hrange : start.frameAnchor.timebase = start.activeRange.timebase)
    (hstart : start.StandsAt 0)
    (h : (events.foldlM cadenceEvent (start, 0)).run = some (.ok (last, steps))) :
    KeepsPace start last ∧ last.StandsAt steps := by
  refine Machine.foldlM_induction
    (fun state => KeepsPace start state.1 ∧ state.1.StandsAt state.2) ?_
    ⟨.refl start, hstart⟩ h
  rintro state event result ⟨hpace, hstands⟩ hevent
  have hrange' : state.1.frameAnchor.timebase = state.1.activeRange.timebase := by
    rw [hpace.timebase_eq, hpace.range_eq, hrange]
  obtain ⟨hpace', hstands'⟩ := cadenceEvent_spec hrange' hstands hevent
  exact ⟨hpace.trans hpace', hstands'⟩

/-- The divisor of a deadline fits 128 bits, whatever the clocks and the rate are. -/
theorem dueDenominator_fits (transport : PlaybackTransport) :
    ∃ denominator : Int, 0 < denominator ∧
      checkedProduct transport.frameAnchor.timebase.numerator
        [transport.clockAnchor.timebase.denominator, transport.rate.numerator.natAbs] =
          some denominator := by
  obtain ⟨hpos, -, hfits⟩ := RationalTime.clocks_bounds transport.frameAnchor.timebase
    transport.clockAnchor.timebase
  obtain ⟨-, -, hproduct⟩ := RationalTime.inI128_product transport.rate.numerator_fits
    transport.frameAnchor.timebase.numerator_fits transport.clockAnchor.timebase.denominator_fits
  have habs : ((transport.rate.numerator * transport.frameAnchor.timebase.numerator *
      transport.clockAnchor.timebase.denominator).natAbs : Int) =
        transport.frameAnchor.timebase.numerator * transport.clockAnchor.timebase.denominator *
          transport.rate.numerator.natAbs := by
    rw [Int.natAbs_mul, Int.natAbs_mul, Int.natAbs_natCast, Int.natAbs_natCast]
    push_cast
    ring
  have hmagnitude : (0 : Int) < transport.rate.numerator.natAbs := by
    exact_mod_cast Int.natAbs_pos.2 transport.numerator_ne_zero
  rw [habs] at hproduct
  refine ⟨_, mul_pos hpos hmagnitude, ?_⟩
  refine Option.bind_eq_some_iff.2 ⟨_, checkedI128_eq hfits, ?_⟩
  exact Option.bind_eq_some_iff.2 ⟨_, checkedI128_eq hproduct, rfl⟩

/-- The first step is due at the anchor. -/
theorem dueClockForStep_anchor (transport : PlaybackTransport) :
    (transport.dueClockForStep 0).run = some (.ok transport.clockAnchor) := by
  have hzero : checkedProduct ((0 : Nat) : Int) [transport.frameAnchor.timebase.denominator,
      transport.clockAnchor.timebase.numerator, transport.rate.denominator] = some 0 := by
    simp [checkedProduct, checkedI128, i128Min, i128Max]
  obtain ⟨denominator, hpos, hdenominator⟩ := transport.dueDenominator_fits
  have hfits : InI128 denominator := by
    obtain ⟨product, hproduct, hrest⟩ := Option.bind_eq_some_iff.1 hdenominator
    exact checkedProduct_fits (inI128_of_checkedI128 hproduct) hrest
  have hless : InI128 (denominator - 1) := by
    rw [inI128_iff] at hfits ⊢
    omega
  have hceil : (ceilDivPositive 0 denominator).run = some (.ok 0) := by
    simp only [ceilDivPositive, Machine.run_bind_eq_ok, Machine.run_lift_eq_ok, rejectIf_eq_ok,
      okOr_eq_ok]
    refine ⟨(), by omega, denominator - 1, checkedI128_eq hless, denominator - 1, ?_, ?_⟩
    · rw [zero_add]
      exact checkedI128_eq hless
    · rw [div128_eq hless hpos, Int.tdiv_eq_zero_of_lt (by omega) (by omega)]
      rfl
  simp only [dueClockForStep, Machine.run_bind_eq_ok, Machine.run_lift_eq_ok, okOr_eq_ok,
    RationalTime.tryFrom_eq_ok]
  refine ⟨0, hzero, denominator, hdenominator, 0, hceil, transport.clockAnchor.value, ?_, rfl,
    trivial⟩
  rw [add_zero]
  exact checkedI128_eq (inI128_of_inI64 transport.clockAnchor.inRange)

/-- A cadence starts with its first frame, due where it is anchored. -/
theorem discontinuityTo_spec {target clock : RationalTime}
    (h : (transport.discontinuityTo target protection clock).run = some (.ok next)) :
    next.clockAnchor = clock ∧ next.rate = transport.rate ∧
      next.frameAnchor.timebase = target.timebase ∧
      next.frameAnchor.timebase = next.activeRange.timebase ∧ next.StandsAt 0 := by
  simp only [discontinuityTo, Machine.run_bind_eq_ok, Machine.run_lift_eq_ok, rejectIf_eq_ok,
    not_or, not_not] at h
  obtain ⟨_, ⟨htb, -⟩, _, -, h⟩ := h
  obtain ⟨hpace, hstands⟩ := schedule_standsAt (n := 0)
    (cadenceStepFor_eq_ok.2 ⟨directionalDistance_eq_ok.2 (by simp [inI64_zero]), le_rfl, by decide⟩)
    (dueClockForStep_anchor _) h
  refine ⟨hpace.clockAnchor_eq, hpace.rate_eq, hpace.timebase_eq, ?_, hstands⟩
  rw [hpace.timebase_eq, hpace.range_eq]
  exact htb

end Events

/-! ## The contract -/

/-- For every clock anchor, clock and frame timebase, rate and cadence offset:

* after the anchor the clock has counted step `n` exactly where step `n` is due; up to the anchor
  nothing is counted, the anchored frame stands, and only the first step is due, at the anchor;
* a deadline is the least clock unit at or after the exact instant of its step;
* a duration ends at the deadline of the next step, is given wherever that is representable, and the
  durations of consecutive steps add up;
* after any presentations, loops and drops the scheduled frame is the step they count up to, from
  that step's own deadline to the next one's;
* none of the arithmetic overflows unchecked. -/
theorem cadence_exact (transport : PlaybackTransport) :
    (∀ (clock due : RationalTime) (steps : Int) (n : Nat),
      clock.timebase = transport.clockAnchor.timebase →
      (transport.intendedSteps clock).Yields (.ok (some steps)) →
      (transport.dueClockForStep n).Yields (.ok due) →
      ((n : Int) ≤ steps ↔ due.value ≤ clock.value)) ∧
    (∀ clock shown : RationalTime, clock.timebase = transport.clockAnchor.timebase →
      (transport.intendedFrameAt clock).Yields (.ok shown) →
      clock.value ≤ transport.clockAnchor.value ∧ shown = transport.frameAnchor ∨
      transport.clockAnchor.value < clock.value ∧ ∃ steps,
        (transport.intendedSteps clock).Yields (.ok (some steps)) ∧
        (transport.frameOfSteps steps).Yields (.ok shown)) ∧
    (∀ (clock due : RationalTime) (n : Nat), clock.value ≤ transport.clockAnchor.value →
      (transport.dueClockForStep n).Yields (.ok due) →
      (due.value ≤ clock.value ↔ n = 0 ∧ clock.value = transport.clockAnchor.value)) ∧
    (∀ (due : RationalTime) (n : Nat), (transport.dueClockForStep n).Yields (.ok due) →
      due.timebase = transport.clockAnchor.timebase ∧
      IsLeast {value : Int | transport.clockAnchor.seconds + n * transport.stepSeconds ≤
        value * transport.clockAnchor.timebase.unit} due.value) ∧
    (∀ (frame due : RationalTime) (duration : Duration),
      (transport.presentationDurationFor frame due).Yields (.ok duration) →
      ∃ step nextDue, transport.cadenceStepFor frame = .ok step ∧
        (transport.dueClockForStep (step + 1)).Yields (.ok nextDue) ∧
        due.value + duration.value = nextDue.value) ∧
    (∀ (frame due nextDue : RationalTime) (step : Nat), transport.cadenceStepFor frame = .ok step →
      step + 1 < 18446744073709551616 → (transport.dueClockForStep step).Yields (.ok due) →
      (transport.dueClockForStep (step + 1)).Yields (.ok nextDue) →
      InI64 (nextDue.value - due.value) →
      ∃ duration, (transport.presentationDurationFor frame due).Yields (.ok duration)) ∧
    (∀ (frames dues : Nat → RationalTime) (durations : Nat → Duration) (first count : Nat),
      (∀ i, i < count → transport.cadenceStepFor (frames i) = .ok (first + i)) →
      (∀ i, i ≤ count → (transport.dueClockForStep (first + i)).Yields (.ok (dues i))) →
      (∀ i, i < count →
        (transport.presentationDurationFor (frames i) (dues i)).Yields (.ok (durations i))) →
      ((∑ i ∈ Finset.range count, (durations i).value : Nat) : Int) =
        (dues count).value - (dues 0).value) ∧
    (∀ (target clock : RationalTime) (protection : FrameProtection) (start : PlaybackTransport),
      (transport.discontinuityTo target protection clock).Yields (.ok start) →
      ∀ events : List CadenceEvent, (events.foldlM cadenceEvent (start, 0)).run ≠ none ∧
        ∀ last steps, (events.foldlM cadenceEvent (start, 0)).Yields (.ok (last, steps)) →
        ∀ scheduled ∈ last.scheduled,
          last.cadenceStepFor scheduled.frame = .ok steps ∧
          (start.dueClockForStep steps).Yields (.ok scheduled.dueClock) ∧
          IsLeast {value : Int | clock.seconds + steps * start.stepSeconds ≤
            value * clock.timebase.unit} scheduled.dueClock.value ∧
          ∃ duration nextDue,
            (last.presentationDurationFor scheduled.frame scheduled.dueClock).Yields
              (.ok duration) ∧
            (start.dueClockForStep (steps + 1)).Yields (.ok nextDue) ∧
            scheduled.dueClock.value + duration.value = nextDue.value) ∧
    (∀ (clock frame due : RationalTime) (n : Nat),
      (transport.intendedFrameAt clock).run ≠ none ∧ (transport.dueClockForStep n).run ≠ none ∧
      (transport.dueClockFor frame).run ≠ none ∧
      (transport.presentationDurationFor frame due).run ≠ none) := by
  refine ⟨fun clock due steps n => le_steps_iff, fun clock shown => intendedFrameAt_cases, ?_,
    fun due n h => ⟨(dueClockForStep_isCeil h).1, dueClockForStep_isLeast h⟩, ?_,
    fun frame due nextDue step => presentationDurationFor_complete,
    fun frames dues durations first count => sum_durations, ?_,
    fun clock frame due n => ⟨intendedFrameAt_ne_none, dueClockForStep_ne_none,
      dueClockFor_ne_none, presentationDurationFor_ne_none⟩⟩
  · intro clock due n hle hdue
    rcases Nat.eq_zero_or_pos n with rfl | hpos
    · have hanchor := dueClockForStep_zero hdue
      omega
    · have hlater := clockAnchor_lt_due hdue hpos
      omega
  · intro frame due duration h
    obtain ⟨step, nextDue, hstep, -, hnext, hvalue, -⟩ := presentationDurationFor_spec h
    exact ⟨step, nextDue, hstep, hnext, hvalue⟩
  · intro target clock protection start hstart events
    obtain ⟨hclock, -, -, hrange, hstands⟩ := discontinuityTo_spec hstart
    refine ⟨Machine.foldlM_ne_none cadenceEvent_ne_none, ?_⟩
    intro last steps h scheduled hscheduled
    obtain ⟨hpace, hlast⟩ := run_standsAt hrange hstands h
    obtain ⟨hstep, hdue, duration, hduration⟩ := hlast scheduled hscheduled
    obtain ⟨step, nextDue, hsame, -, hnext, hvalue, -⟩ := presentationDurationFor_spec hduration
    rw [hstep] at hsame
    cases hsame
    rw [dueClockForStep_congr hpace.clockAnchor_eq hpace.rate_eq hpace.timebase_eq] at hdue hnext
    have hleast := dueClockForStep_isLeast hdue
    rw [hclock] at hleast
    exact ⟨hstep, hdue, hleast, duration, nextDue, hduration, hnext, hvalue⟩

/-- A transport at the normal rate, anchored one unit after the start of a millisecond clock. -/
def standing : PlaybackTransport where
  bounds := ⟨⟨0, .integer 24 Timebase.pos_24 Timebase.fits_24, inI64_zero⟩,
    ⟨100, .integer 24 Timebase.pos_24 Timebase.fits_24, by decide⟩, rfl, by decide⟩
  loopRange := none
  mode := .playing
  playhead := ⟨0, .integer 24 Timebase.pos_24 Timebase.fits_24, inI64_zero⟩
  rate := .normal
  dropPolicy := .preserveEveryFrame
  dropStatistics := ⟨0, 0, 0⟩
  forcedNoted := false
  clockAnchor := ⟨1, .integer 1000 Timebase.pos_1000 Timebase.fits_1000, inI64_one⟩
  frameAnchor := ⟨0, .integer 24 Timebase.pos_24 Timebase.fits_24, inI64_zero⟩
  cadenceOffset := 0
  scheduled := none
  epoch := 0
  rate_moves := by decide
  offset_fits := zero_lt_word
  bounds_nonempty := by decide
  loop_nonempty := by simp

/-- Before the anchor the frame of step zero stands although step zero is due at the anchor only. -/
theorem step_zero_stands_before_due :
    ∃ clock frame due : RationalTime, clock.timebase = standing.clockAnchor.timebase ∧
      (standing.intendedFrameAt clock).Yields (.ok frame) ∧
      standing.cadenceStepFor frame = .ok 0 ∧ (standing.dueClockForStep 0).Yields (.ok due) ∧
      ¬ (0 ≤ 0 ↔ due.value ≤ clock.value) :=
  ⟨⟨0, .integer 1000 (by decide) (by decide), by decide⟩, standing.frameAnchor,
    standing.clockAnchor, rfl, rfl, rfl, dueClockForStep_anchor standing, by decide⟩

end PlaybackTransport

end Engine
end Superi

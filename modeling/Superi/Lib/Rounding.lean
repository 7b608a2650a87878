import Mathlib

/-!
# Rounding — integers next to a rational number

Each rule says which integer stands for a rational one, and says it for one integer only.  For a
quotient of integers that integer is the truncated quotient or one of its neighbours, and the
remainder decides which.
-/

namespace Superi
namespace Rounding

/-! ## Rules -/

def IsFloor (q : ℚ) (v : Int) : Prop := (v : ℚ) ≤ q ∧ q < v + 1

def IsCeil (q : ℚ) (v : Int) : Prop := (v : ℚ) - 1 < q ∧ q ≤ v

/-- The nearest integer that is no further from zero. -/
def Truncates (q : ℚ) (v : Int) : Prop := |(v : ℚ)| ≤ |q| ∧ |q - v| < 1

/-- The nearest integer, and of two that are equally near the even one. -/
def NearestEven (q : ℚ) (v : Int) : Prop := |q - v| < 1 / 2 ∨ |q - v| = 1 / 2 ∧ Even v

/-! ## Only one integer -/

variable {q : ℚ} {v w : Int}

theorem IsFloor.unique (hv : IsFloor q v) (hw : IsFloor q w) : v = w := by
  have h₁ : (v : ℚ) < w + 1 := lt_of_le_of_lt hv.1 hw.2
  have h₂ : (w : ℚ) < v + 1 := lt_of_le_of_lt hw.1 hv.2
  have h₁' : v < w + 1 := by exact_mod_cast h₁
  have h₂' : w < v + 1 := by exact_mod_cast h₂
  omega

theorem IsCeil.unique (hv : IsCeil q v) (hw : IsCeil q w) : v = w := by
  have h₁ : (v : ℚ) - 1 < w := lt_of_lt_of_le hv.1 hw.2
  have h₂ : (w : ℚ) - 1 < v := lt_of_lt_of_le hw.1 hv.2
  have h₁' : v - 1 < w := by exact_mod_cast h₁
  have h₂' : w - 1 < v := by exact_mod_cast h₂
  omega

theorem truncates_iff_of_nonneg (hq : 0 ≤ q) : Truncates q v ↔ IsFloor q v := by
  rw [Truncates, IsFloor, abs_of_nonneg hq, abs_lt]
  constructor
  · rintro ⟨hle, hlow, hhigh⟩
    exact ⟨le_trans (le_abs_self _) hle, by linarith⟩
  · rintro ⟨hle, hlt⟩
    have hv : 0 ≤ v := by
      have hlast : (0 : ℚ) < v + 1 := lt_of_le_of_lt hq hlt
      have hlast' : 0 < v + 1 := by exact_mod_cast hlast
      omega
    have hvq : (0 : ℚ) ≤ v := by exact_mod_cast hv
    exact ⟨by rwa [abs_of_nonneg hvq], by linarith, by linarith⟩

theorem truncates_neg : Truncates (-q) (-v) ↔ Truncates q v := by
  have hdiff : -q - ((-v : Int) : ℚ) = -(q - v) := by push_cast; ring
  rw [Truncates, Truncates, hdiff, abs_neg, abs_neg]
  push_cast
  rw [abs_neg]

theorem isFloor_neg : IsFloor (-q) (-v) ↔ IsCeil q v := by
  rw [IsFloor, IsCeil]
  push_cast
  constructor
  · rintro ⟨hle, hlt⟩
    exact ⟨by linarith, by linarith⟩
  · rintro ⟨hlt, hle⟩
    exact ⟨by linarith, by linarith⟩

theorem truncates_iff_of_nonpos (hq : q ≤ 0) : Truncates q v ↔ IsCeil q v := by
  rw [← truncates_neg, truncates_iff_of_nonneg (by linarith), isFloor_neg]

theorem Truncates.unique (hv : Truncates q v) (hw : Truncates q w) : v = w := by
  rcases le_total 0 q with hq | hq
  · rw [truncates_iff_of_nonneg hq] at hv hw
    exact hv.unique hw
  · rw [truncates_iff_of_nonpos hq] at hv hw
    exact hv.unique hw

theorem NearestEven.dist_le (hv : NearestEven q v) : |q - v| ≤ 1 / 2 := by
  rcases hv with h | ⟨h, -⟩
  · exact le_of_lt h
  · exact le_of_eq h

theorem NearestEven.even (hv : NearestEven q v) (htie : |q - v| = 1 / 2) : Even v := by
  rcases hv with h | ⟨-, h⟩
  · exact absurd htie (ne_of_lt h)
  · exact h

/-- The integers on both sides of a tie are not both even. -/
theorem NearestEven.not_succ (hv : NearestEven q v) : ¬ NearestEven q (v + 1) := by
  intro hw
  obtain ⟨hv₁, hv₂⟩ := abs_le.1 hv.dist_le
  obtain ⟨hw₁, hw₂⟩ := abs_le.1 hw.dist_le
  push_cast at hw₁ hw₂
  have hq : q = v + 1 / 2 := by linarith
  have hleft : |q - v| = 1 / 2 := by
    rw [hq, add_sub_cancel_left]
    norm_num
  have hright : |q - ((v + 1 : Int) : ℚ)| = 1 / 2 := by
    have hdiff : q - ((v + 1 : Int) : ℚ) = -(1 / 2) := by
      push_cast
      linarith
    rw [hdiff]
    norm_num
  exact Int.even_add_one.1 (hw.even hright) (hv.even hleft)

theorem NearestEven.unique (hv : NearestEven q v) (hw : NearestEven q w) : v = w := by
  obtain ⟨hv₁, hv₂⟩ := abs_le.1 hv.dist_le
  obtain ⟨hw₁, hw₂⟩ := abs_le.1 hw.dist_le
  have hvw : (v : ℚ) ≤ w + 1 := by linarith
  have hwv : (w : ℚ) ≤ v + 1 := by linarith
  have hvw' : v ≤ w + 1 := by exact_mod_cast hvw
  have hwv' : w ≤ v + 1 := by exact_mod_cast hwv
  by_contra hne
  rcases (by omega : v = w + 1 ∨ w = v + 1) with rfl | rfl
  · exact hw.not_succ hv
  · exact hv.not_succ hw

/-! ## Order -/

theorem IsFloor.le_iff (hv : IsFloor q v) : w ≤ v ↔ (w : ℚ) ≤ q := by
  constructor
  · intro hle
    have hle' : (w : ℚ) ≤ v := by exact_mod_cast hle
    exact le_trans hle' hv.1
  · intro hle
    have hlt : (w : ℚ) < v + 1 := lt_of_le_of_lt hle hv.2
    have hlt' : w < v + 1 := by exact_mod_cast hlt
    omega

theorem IsCeil.le_iff (hv : IsCeil q v) : v ≤ w ↔ q ≤ w := by
  constructor
  · intro hle
    have hle' : (v : ℚ) ≤ w := by exact_mod_cast hle
    exact le_trans hv.2 hle'
  · intro hle
    have hlt : (v : ℚ) - 1 < w := lt_of_lt_of_le hv.1 hle
    have hlt' : v - 1 < w := by exact_mod_cast hlt
    omega

/-- Rounding to the nearest keeps the order: where it would be turned around, both numbers lie on
one tie, which has one rounding. -/
theorem NearestEven.mono {r : ℚ} (hv : NearestEven q v) (hw : NearestEven r w) (h : q ≤ r) :
    v ≤ w := by
  by_contra hlt
  obtain ⟨-, hv₂⟩ := abs_le.1 hv.dist_le
  obtain ⟨hv₁, -⟩ := abs_le.1 hv.dist_le
  obtain ⟨-, hw₂⟩ := abs_le.1 hw.dist_le
  have hgap : (w : ℚ) + 1 ≤ v := by exact_mod_cast not_le.1 hlt
  have hqr : q = r := by linarith
  rw [hqr] at hv
  exact hlt (hv.unique hw).le

/-! ## Shifted by an integer -/

variable {k : Int}

theorem isFloor_add : IsFloor (q + k) (v + k) ↔ IsFloor q v := by
  rw [IsFloor, IsFloor]
  push_cast
  constructor
  · rintro ⟨hle, hlt⟩
    exact ⟨by linarith, by linarith⟩
  · rintro ⟨hle, hlt⟩
    exact ⟨by linarith, by linarith⟩

theorem isCeil_add : IsCeil (q + k) (v + k) ↔ IsCeil q v := by
  rw [IsCeil, IsCeil]
  push_cast
  constructor
  · rintro ⟨hlt, hle⟩
    exact ⟨by linarith, by linarith⟩
  · rintro ⟨hlt, hle⟩
    exact ⟨by linarith, by linarith⟩

theorem nearestEven_add (h : Even k ∨ ∀ v : Int, |q - v| ≠ 1 / 2) :
    NearestEven (q + k) (v + k) ↔ NearestEven q v := by
  have hdiff : q + k - ((v + k : Int) : ℚ) = q - v := by push_cast; ring
  rw [NearestEven, NearestEven, hdiff]
  rcases h with hk | htie
  · rw [Int.even_add]
    simp [hk]
  · simp only [htie v, false_and]

/-! ## Ties -/

/-- A tie has an even neighbour. -/
theorem exists_nearestEven_half (v : Int) : ∃ u, NearestEven (v + 1 / 2) u ∧ Even u := by
  rcases Int.even_or_odd v with heven | hodd
  · refine ⟨v, .inr ⟨?_, heven⟩, heven⟩
    rw [add_sub_cancel_left]
    norm_num
  · refine ⟨v + 1, .inr ⟨?_, hodd.add_one⟩, hodd.add_one⟩
    have hdiff : (v : ℚ) + 1 / 2 - ((v + 1 : Int) : ℚ) = -(1 / 2) := by
      push_cast
      ring
    rw [hdiff]
    norm_num

/-- Truncation takes a tie to one of its two neighbours. -/
theorem Truncates.dist_half {v w : Int} (h : Truncates (v + 1 / 2) w) :
    |(v : ℚ) + 1 / 2 - w| = 1 / 2 := by
  obtain ⟨hlow, hhigh⟩ := abs_lt.1 h.2
  have h₁ : (w : ℚ) < v + 2 := by linarith
  have h₂ : (v : ℚ) - 1 < w := by linarith
  have h₁' : w < v + 2 := by exact_mod_cast h₁
  have h₂' : v - 1 < w := by exact_mod_cast h₂
  rcases (by omega : w = v ∨ w = v + 1) with rfl | rfl
  · rw [add_sub_cancel_left]
    norm_num
  · have hdiff : (v : ℚ) + 1 / 2 - ((v + 1 : Int) : ℚ) = -(1 / 2) := by
      push_cast
      ring
    rw [hdiff]
    norm_num

/-! ## Quotients -/

variable {n d : Int}

/-- The truncated quotient is the floor or lies one above it. -/
theorem tdiv_cases (hd : 0 < d) :
    (0 ≤ n.tmod d ∧ 0 ≤ n ∨ n.tmod d ≤ 0 ∧ n ≤ 0) ∧ |n.tmod d| < d ∧
      n = d * n.tdiv d + n.tmod d := by
  refine ⟨?_, ?_, (Int.mul_tdiv_add_tmod n d).symm⟩
  · rcases le_total 0 n with hn | hn
    · exact .inl ⟨Int.tmod_nonneg d hn, hn⟩
    · refine .inr ⟨?_, hn⟩
      have := Int.tmod_nonneg d (Int.neg_nonneg_of_nonpos hn)
      rw [Int.neg_tmod] at this
      omega
  · rw [abs_lt]
    refine ⟨?_, Int.tmod_lt_of_pos n hd⟩
    have hlt := Int.tmod_lt_of_pos (-n) hd
    rw [Int.neg_tmod] at hlt
    omega

/-- How far a quotient is from its truncation. -/
theorem div_sub_tdiv (hd : 0 < d) : (n : ℚ) / d - n.tdiv d = n.tmod d / d := by
  have hdq : (d : ℚ) ≠ 0 := by exact_mod_cast hd.ne'
  have hn : (n : ℚ) = d * n.tdiv d + n.tmod d := by
    exact_mod_cast (tdiv_cases hd (n := n)).2.2
  rw [div_sub' hdq, div_left_inj' hdq]
  linarith

theorem eq_div_iff_tmod (hd : 0 < d) : (v : ℚ) = n / d ↔ n.tmod d = 0 ∧ v = n.tdiv d := by
  have hdq : (d : ℚ) ≠ 0 := by exact_mod_cast hd.ne'
  rw [eq_div_iff hdq]
  constructor
  · intro h
    have hmul : v * d = n := by exact_mod_cast h
    subst hmul
    exact ⟨Int.mul_tmod_left v d, (Int.mul_tdiv_cancel v hd.ne').symm⟩
  · rintro ⟨hzero, rfl⟩
    have hmul := (tdiv_cases hd (n := n)).2.2
    rw [hzero, add_zero, mul_comm] at hmul
    exact_mod_cast hmul.symm

/-- What a rule demands of a quotient, read off the remainder of the truncated division. -/
theorem isFloor_div (hd : 0 < d) :
    IsFloor (n / d) (if n.tmod d < 0 then n.tdiv d - 1 else n.tdiv d) := by
  have hdq : (0 : ℚ) < d := by exact_mod_cast hd
  obtain ⟨-, hlt, -⟩ := tdiv_cases hd (n := n)
  have hrest := div_sub_tdiv hd (n := n)
  obtain ⟨hlow, hhigh⟩ := abs_lt.1 hlt
  have hlow' : (-1 : ℚ) < n.tmod d / d := by
    rw [lt_div_iff₀ hdq]
    exact_mod_cast (by linarith : -1 * d < n.tmod d)
  have hhigh' : (n.tmod d : ℚ) / d < 1 := by
    rw [div_lt_one hdq]
    exact_mod_cast hhigh
  split
  · rename_i hneg
    have hneg' : (n.tmod d : ℚ) / d < 0 := div_neg_of_neg_of_pos (by exact_mod_cast hneg) hdq
    constructor <;> push_cast <;> linarith
  · rename_i hpos
    have hpos' : (0 : ℚ) ≤ n.tmod d / d :=
      div_nonneg (by exact_mod_cast not_lt.1 hpos) hdq.le
    constructor <;> linarith

theorem isCeil_div (hd : 0 < d) :
    IsCeil (n / d) (if n.tmod d > 0 then n.tdiv d + 1 else n.tdiv d) := by
  have hneg := isFloor_div hd (n := -n)
  simp only [Int.neg_tmod, Int.neg_tdiv, neg_lt_zero, Int.cast_neg, neg_div] at hneg
  rw [← isFloor_neg]
  split
  · rename_i hpos
    rw [if_pos hpos] at hneg
    rwa [neg_add']
  · rename_i hle
    rwa [if_neg hle] at hneg

/-- The ceiling of a nonnegative quotient, as a quotient. -/
theorem isCeil_div_of_nonneg (hn : 0 ≤ n) (hd : 0 < d) : IsCeil (n / d) ((n + (d - 1)).tdiv d) := by
  have hdq : (0 : ℚ) < d := by exact_mod_cast hd
  obtain ⟨v, hv⟩ : ∃ v, v = (n + (d - 1)).tdiv d := ⟨_, rfl⟩
  obtain ⟨-, hlt, hsplit⟩ := tdiv_cases hd (n := n + (d - 1))
  have hrest := Int.tmod_nonneg d (by omega : 0 ≤ n + (d - 1))
  rw [← hv] at hsplit ⊢
  obtain ⟨-, hlt⟩ := abs_lt.1 hlt
  have hlow : (v - 1) * d < n := by linarith
  have hhigh : n ≤ v * d := by linarith
  constructor
  · rw [lt_div_iff₀ hdq]
    exact_mod_cast hlow
  · rw [div_le_iff₀ hdq]
    exact_mod_cast hhigh

theorem truncates_div (hd : 0 < d) : Truncates (n / d) (n.tdiv d) := by
  have hdq : (0 : ℚ) < d := by exact_mod_cast hd
  obtain ⟨hsign, -, -⟩ := tdiv_cases hd (n := n)
  rcases hsign with ⟨hrest, hn⟩ | ⟨hrest, hn⟩
  · rw [truncates_iff_of_nonneg (div_nonneg (by exact_mod_cast hn) hdq.le)]
    have hfloor := isFloor_div hd (n := n)
    rwa [if_neg (not_lt.2 hrest)] at hfloor
  · rw [truncates_iff_of_nonpos (div_nonpos_of_nonpos_of_nonneg (by exact_mod_cast hn) hdq.le)]
    have hceil := isCeil_div hd (n := n)
    rwa [if_neg (not_lt.2 hrest)] at hceil

/-- Where the division leaves a remainder, the next integer away from zero lies on its side. -/
theorem dist_away (hd : 0 < d) (hrest : n.tmod d ≠ 0) :
    |(n : ℚ) / d - ((n.tdiv d + n.sign : Int) : ℚ)| = 1 - |(n.tmod d : ℚ)| / d := by
  have hdq : (0 : ℚ) < d := by exact_mod_cast hd
  obtain ⟨hsign, hlt, -⟩ := tdiv_cases hd (n := n)
  have hlt' : |(n.tmod d : ℚ)| / d < 1 := by
    rw [div_lt_one hdq]
    exact_mod_cast hlt
  have hdiff : (n : ℚ) / d - ((n.tdiv d + n.sign : Int) : ℚ) = n.tmod d / d - n.sign := by
    rw [← div_sub_tdiv hd]
    push_cast
    ring
  rw [hdiff]
  rcases hsign with ⟨hpos, hn⟩ | ⟨hneg, hn⟩
  · have hn' : n ≠ 0 := fun hzero => hrest (by rw [hzero, Int.zero_tmod])
    have hposq : (0 : ℚ) ≤ n.tmod d := by exact_mod_cast hpos
    rw [Int.sign_eq_one_of_pos (by omega)]
    rw [abs_of_nonneg hposq] at hlt' ⊢
    rw [abs_of_neg (by push_cast; linarith)]
    push_cast
    ring
  · have hn' : n ≠ 0 := fun hzero => hrest (by rw [hzero, Int.zero_tmod])
    have hnegq : (n.tmod d : ℚ) ≤ 0 := by exact_mod_cast hneg
    rw [Int.sign_eq_neg_one_of_neg (by omega)]
    rw [abs_of_nonpos hnegq, neg_div] at hlt' ⊢
    rw [abs_of_pos (by push_cast; linarith)]
    push_cast
    ring

/-- Rounding to the nearest: twice the remainder against the divisor decides, and a tie goes to the
neighbour further from zero exactly where the truncated quotient is odd. -/
theorem nearestEven_div (hd : 0 < d) : NearestEven (n / d)
    (match Ord.compare ((n.tmod d).natAbs * 2 : Int) d with
      | .lt => n.tdiv d
      | .gt => n.tdiv d + n.sign
      | .eq => if (n.tdiv d).tmod 2 = 0 then n.tdiv d else n.tdiv d + n.sign) := by
  have hdq : (0 : ℚ) < d := by exact_mod_cast hd
  have hnear : |(n : ℚ) / d - n.tdiv d| = |(n.tmod d : ℚ)| / d := by
    rw [div_sub_tdiv hd, abs_div, abs_of_pos hdq]
  have hparity : (n.tdiv d).tmod 2 = 0 ↔ Even (n.tdiv d) := by
    rw [even_iff_two_dvd, Int.dvd_iff_tmod_eq_zero]
  rw [Int.natCast_natAbs]
  split
  · rename_i hcmp
    have hlt : |n.tmod d| * 2 < d := compare_lt_iff_lt.1 hcmp
    have hlt' : |(n.tmod d : ℚ)| * 2 < d := by exact_mod_cast hlt
    left
    rw [hnear, div_lt_iff₀ hdq]
    linarith
  · rename_i hcmp
    have hlt : d < |n.tmod d| * 2 := compare_gt_iff_gt.1 hcmp
    have hlt' : (d : ℚ) < |(n.tmod d : ℚ)| * 2 := by exact_mod_cast hlt
    have hrest : n.tmod d ≠ 0 := by
      intro hzero
      rw [hzero, abs_zero] at hlt
      omega
    have hhalf : 1 / 2 < |(n.tmod d : ℚ)| / d := by
      rw [lt_div_iff₀ hdq]
      linarith
    left
    rw [dist_away hd hrest]
    linarith
  · rename_i hcmp
    have heq : |n.tmod d| * 2 = d := compare_eq_iff_eq.1 hcmp
    have heq' : |(n.tmod d : ℚ)| * 2 = d := by exact_mod_cast heq
    have hrest : n.tmod d ≠ 0 := by
      intro hzero
      rw [hzero, abs_zero] at heq
      omega
    have hn : n ≠ 0 := fun hzero => hrest (by rw [hzero, Int.zero_tmod])
    have hhalf : |(n.tmod d : ℚ)| / d = 1 / 2 := by
      rw [div_eq_iff hdq.ne']
      linarith
    right
    split
    · rename_i heven
      exact ⟨hnear.trans hhalf, hparity.1 heven⟩
    · rename_i hodd
      rw [hparity] at hodd
      refine ⟨by rw [dist_away hd hrest, hhalf]; norm_num, ?_⟩
      rcases Int.lt_or_gt_of_ne hn with hneg | hpos
      · rw [Int.sign_eq_neg_one_of_neg hneg]
        exact Int.even_sub_one.2 hodd
      · rw [Int.sign_eq_one_of_pos hpos]
        exact Int.even_add_one.2 hodd

end Rounding
end Superi

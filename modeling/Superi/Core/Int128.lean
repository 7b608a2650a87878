import Superi.Core.Time

/-!
# Int128 — 128-bit steps that are not checked

Most intermediate results of the time arithmetic are computed by plain operators on `i128`.  An
operator whose result does not fit has no outcome here, so that a computation which has one is a
computation on which nothing overflowed.
-/

namespace Superi
namespace Core

open Result

/-- A fallible computation that has no outcome where a 128-bit step overflows. -/
abbrev Machine (α : Type) := ExceptT Error Option α

namespace Machine

variable {α β : Type}

/-- A computation without a step that can overflow. -/
def lift (x : Except Error α) : Machine α := ExceptT.mk (some x)

/-- Nothing overflows, and the outcome is the given one. -/
def Yields (x : Machine α) (outcome : Except Error α) : Prop := x.run = some outcome

@[simp] theorem lift_ok (a : α) : lift (.ok a) = (pure a : Machine α) := rfl

theorem yields_lift (x : Except Error α) : (lift x).Yields x := rfl

theorem lift_bind (x : Except Error α) (f : α → Except Error β) :
    lift (x >>= f) = lift x >>= fun a => lift (f a) := by
  cases x <;> rfl

theorem run_lift_eq_ok {x : Except Error α} {a : α} :
    (lift x).run = some (.ok a) ↔ x = .ok a := Option.some_inj

theorem run_lift_ne_none (x : Except Error α) : (lift x).run ≠ none := Option.some_ne_none _

theorem run_bind_eq_ok {x : Machine α} {f : α → Machine β} {b : β} :
    (x >>= f).run = some (.ok b) ↔ ∃ a, x.run = some (.ok a) ∧ (f a).run = some (.ok b) := by
  rw [ExceptT.run_bind]
  cases x.run with
  | none => simp
  | some outcome => cases outcome <;> simp

/-- Something overflows in the first part, or in what follows its outcome. -/
theorem run_bind_eq_none {x : Machine α} {f : α → Machine β} :
    (x >>= f).run = none ↔ x.run = none ∨ ∃ a, x.run = some (.ok a) ∧ (f a).run = none := by
  rw [ExceptT.run_bind]
  cases x.run with
  | none => simp
  | some outcome => cases outcome <;> simp

/-- A computation fails where one of its two parts does. -/
theorem run_bind_eq_error {x : Machine α} {f : α → Machine β} {error : Error} :
    (x >>= f).run = some (.error error) ↔
      x.run = some (.error error) ∨ ∃ a, x.run = some (.ok a) ∧ (f a).run = some (.error error) := by
  rw [ExceptT.run_bind]
  cases x.run with
  | none => simp
  | some outcome => cases outcome <;> simp

theorem run_map_eq_ok {x : Machine α} {f : α → β} {b : β} :
    (f <$> x).run = some (.ok b) ↔ ∃ a, x.run = some (.ok a) ∧ f a = b := by
  rw [ExceptT.run_map]
  cases x.run with
  | none => simp
  | some outcome => cases outcome <;> simp [Except.map]

theorem run_map_eq_none {x : Machine α} {f : α → β} : (f <$> x).run = none ↔ x.run = none := by
  rw [ExceptT.run_map]
  exact Option.map_eq_none_iff

/-- Two continuations that agree on the outcome of the first part. -/
theorem lift_bind_congr {x : Except Error α} {f g : α → Machine β}
    (h : ∀ a, x = .ok a → f a = g a) : lift x >>= f = lift x >>= g := by
  cases x with
  | error error => rfl
  | ok a => exact h a rfl

/-- Invariant rule for a loop. -/
theorem foldlM_induction {f : β → α → Machine β} (P : β → Prop)
    (step : ∀ s a s', P s → (f s a).run = some (.ok s') → P s') {as : List α} {s s' : β} (hs : P s)
    (h : (as.foldlM f s).run = some (.ok s')) : P s' := by
  induction as generalizing s with
  | nil =>
      cases h
      exact hs
  | cons a rest ih =>
      obtain ⟨mid, hmid, hrest⟩ := run_bind_eq_ok.1 h
      exact ih (step s a mid hs hmid) hrest

/-- A traversal relates input and output position by position. -/
theorem run_mapM_eq_ok {f : α → Machine β} {as : List α} {bs : List β} :
    (as.mapM f).run = some (.ok bs) ↔
      List.Forall₂ (fun a b => (f a).run = some (.ok b)) as bs := by
  induction as generalizing bs with
  | nil =>
      rw [List.mapM_nil, List.forall₂_nil_left_iff]
      constructor
      · rintro ⟨⟩
        rfl
      · rintro rfl
        rfl
  | cons a as ih =>
      rw [List.mapM_cons, run_bind_eq_ok, List.forall₂_cons_left_iff]
      constructor
      · rintro ⟨b, hb, hbound⟩
        obtain ⟨rest, hrest, heq⟩ := run_bind_eq_ok.1 hbound
        cases heq
        exact ⟨b, rest, hb, ih.1 hrest, rfl⟩
      · rintro ⟨b, rest, hb, hrest, rfl⟩
        exact ⟨b, hb, run_bind_eq_ok.2 ⟨rest, ih.2 hrest, rfl⟩⟩

/-- A loop overflows only where one of its steps does. -/
theorem foldlM_ne_none {f : β → α → Machine β} (step : ∀ s a, (f s a).run ≠ none) {as : List α}
    {s : β} : (as.foldlM f s).run ≠ none := by
  induction as generalizing s with
  | nil => exact Option.some_ne_none _
  | cons a rest ih =>
      intro h
      rcases run_bind_eq_none.1 h with h | ⟨mid, -, h⟩
      · exact step s a h
      · exact ih h

end Machine

/-! ## Operators -/

/-- Whether a value is representable as `i128`. -/
def InI128 (value : Int) : Prop := i128Min ≤ value ∧ value ≤ i128Max

instance (value : Int) : Decidable (InI128 value) := inferInstanceAs (Decidable (_ ∧ _))

def narrow (value : Int) : Machine Int :=
  if InI128 value then pure value else ExceptT.mk none

def mul128 (left right : Int) : Machine Int := narrow (left * right)

def add128 (left right : Int) : Machine Int := narrow (left + right)

def sub128 (left right : Int) : Machine Int := narrow (left - right)

def abs128 (value : Int) : Machine Int := narrow value.natAbs

/-- Truncated division, also without an outcome for a zero divisor. -/
def div128 (left right : Int) : Machine Int :=
  if right = 0 then ExceptT.mk none else narrow (left.tdiv right)

/-- The remainder overflows where the quotient does. -/
def rem128 (left right : Int) : Machine Int := do
  let _ ← div128 left right
  pure (left.tmod right)

/-- Euclid's loop on `i128`. -/
def gcd128 (left right : Int) : Machine Int :=
  if right = 0 then pure left
  else if left = i128Min ∧ right = -1 then ExceptT.mk none
  else gcd128 right (left.tmod right)
termination_by right.natAbs
decreasing_by
  rw [Int.natAbs_tmod]
  exact Nat.mod_lt _ (Int.natAbs_pos.2 ‹_›)

/-! ## Where they have an outcome -/

theorem narrow_eq {value : Int} (h : InI128 value) : narrow value = pure value := if_pos h

theorem narrow_eq_ok {value result : Int} (h : (narrow value).run = some (.ok result)) :
    InI128 value ∧ result = value := by
  unfold narrow at h
  split at h
  · cases h
    exact ⟨‹_›, rfl⟩
  · cases h

/-- The bounds spelled out, for arithmetic. -/
theorem inI128_iff {value : Int} : InI128 value ↔
    -170141183460469231731687303715884105728 ≤ value ∧
      value ≤ 170141183460469231731687303715884105727 := Iff.rfl

theorem inI64_iff {value : Int} : InI64 value ↔
    -9223372036854775808 ≤ value ∧ value ≤ 9223372036854775807 := Iff.rfl

theorem checkedI128_eq {value : Int} (h : InI128 value) : checkedI128 value = some value := if_pos h

theorem inI128_of_checkedI128 {value result : Int} (h : checkedI128 value = some result) :
    InI128 result := by
  have heq := checkedI128_eq_some h
  subst heq
  unfold checkedI128 at h
  split at h
  · assumption
  · cases h

theorem inI128_of_inI64 {value : Int} (h : InI64 value) : InI128 value := by
  rw [inI64_iff] at h
  rw [inI128_iff]
  omega

/-- A value fits where a positive multiple of it does. -/
theorem inI128_of_mul {value factor : Int} (hfactor : 1 ≤ factor) (h : InI128 (value * factor)) :
    InI128 value := by
  rw [inI128_iff] at h ⊢
  rcases le_total 0 value with hpos | hneg
  · have hle : value * 1 ≤ value * factor := mul_le_mul_of_nonneg_left hfactor hpos
    omega
  · have hle : value * factor ≤ value * 1 := mul_le_mul_of_nonpos_left hfactor hneg
    omega

variable {n d : Int}

theorem inI128_tdiv (hn : InI128 n) (hd : 0 < d) : InI128 (n.tdiv d) := by
  have habs := Int.natAbs_tdiv_le_natAbs n d
  rw [inI128_iff] at hn ⊢
  rcases le_total 0 n with hpos | hneg
  · have hq : 0 ≤ n.tdiv d := Int.tdiv_nonneg hpos hd.le
    omega
  · have hq : 0 ≤ (-n).tdiv d := Int.tdiv_nonneg (by omega) hd.le
    rw [Int.neg_tdiv] at hq
    omega

theorem div128_eq (hn : InI128 n) (hd : 0 < d) : div128 n d = pure (n.tdiv d) := by
  rw [div128, if_neg hd.ne', narrow_eq (inI128_tdiv hn hd)]

theorem rem128_eq (hn : InI128 n) (hd : 0 < d) : rem128 n d = pure (n.tmod d) := by
  rw [rem128, div128_eq hn hd, pure_bind]

/-- Euclid's loop on nonnegative values computes their greatest common divisor. -/
theorem gcd128_eq (left right : Nat) : gcd128 left right = pure (Nat.gcd left right : Int) := by
  induction right using Nat.strong_induction_on generalizing left with
  | _ right ih =>
      rw [gcd128]
      by_cases hzero : right = 0
      · rw [hzero]
        simp
      · have hright : (right : Int) ≠ 0 := by exact_mod_cast hzero
        have hno : ¬ ((left : Int) = i128Min ∧ (right : Int) = -1) := by omega
        rw [if_neg hright, if_neg hno]
        have hmod : (left : Int).tmod right = ((left % right : Nat) : Int) := rfl
        rw [hmod, ih (left % right) (Nat.mod_lt _ (Nat.pos_of_ne_zero hzero)),
          Nat.gcd_comm left right, Nat.gcd_rec right left, Nat.gcd_comm]

theorem gcd128_of_nonneg {left right : Int} (hleft : 0 ≤ left) (hright : 0 ≤ right) :
    gcd128 left right = pure (Int.gcd left right : Int) := by
  lift left to Nat using hleft
  lift right to Nat using hright
  exact gcd128_eq left right

end Core
end Superi

import Mathlib

/-!
# Decimal — numbers printed with leading zeros

A number is printed in at least a given width.  A text of digits is the print of its value in its
own width, and in a smaller width exactly where it does not start with a zero.  Texts without
leading zeros are ordered by length first and then as texts, in the order of their values.
-/

namespace Superi
namespace Decimal

/-- The digits of a number, filled up with zeros to the width. -/
def padded (width n : Nat) : List Char :=
  List.replicate (width - (Nat.toDigits 10 n).length) '0' ++ Nat.toDigits 10 n

/-- The number a text of digits stands for. -/
def value (digits : List Char) : Nat := Nat.ofDigitChars 10 digits 0

/-- A text of nothing but ASCII digits. -/
def IsDigits (text : List Char) : Prop := ∀ c ∈ text, c.isDigit = true

instance (text : List Char) : Decidable (IsDigits text) :=
  List.decidableBAll (fun c : Char => c.isDigit = true) text

variable {width n : Nat} {digits : List Char}

/-! ## Printing -/

@[simp] theorem value_padded : value (padded width n) = n := by
  rw [value, padded, Nat.ofDigitChars_append, Nat.ofDigitChars_replicate_zero, Nat.mul_zero,
    Nat.ofDigitChars_ten_toDigits]

theorem isDigits_padded (width n : Nat) : IsDigits (padded width n) := by
  intro c hc
  rcases List.mem_append.1 hc with hfill | hdigit
  · rw [(List.mem_replicate.1 hfill).2]
    rfl
  · exact Nat.isDigit_of_mem_toDigits (by decide) (by decide) hdigit

theorem length_padded : (padded width n).length = max width (Nat.toDigits 10 n).length := by
  rw [padded, List.length_append, List.length_replicate]
  omega

/-- A number below the power of the width is printed in exactly the width. -/
theorem length_padded_of_lt (hwidth : 0 < width) (hn : n < 10 ^ width) :
    (padded width n).length = width := by
  rw [length_padded, max_eq_left ((Nat.length_toDigits_le_iff (by decide) hwidth).2 hn)]

theorem le_length_padded : width ≤ (padded width n).length := by
  rw [length_padded]
  exact le_max_left _ _

/-- Only zero is printed with a leading zero that no width asks for. -/
theorem head?_toDigits (h : (Nat.toDigits 10 n).head? = some '0') : n = 0 := by
  induction n using Nat.strongRecOn with
  | _ n ih =>
      rcases Nat.lt_or_ge n 10 with hlt | hge
      · rw [Nat.toDigits_of_lt_base hlt, List.head?_cons, Option.some.injEq,
          Nat.digitChar_eq_zero] at h
        exact h
      · rw [Nat.toDigits_of_base_le (by decide) hge, List.head?_append] at h
        rw [List.head?_eq_some_head Nat.toDigits_ne_nil, Option.some_or,
          ← List.head?_eq_some_head] at h
        have hzero := ih (n / 10) (by omega) h
        omega

/-! ## Reading -/

/-- A digit is the print of its value. -/
theorem digitChar_of_isDigit {c : Char} (h : c.isDigit = true) :
    c.toNat - 48 < 10 ∧ (c.toNat - 48).digitChar = c := by
  obtain ⟨hlow, hhigh⟩ := Char.isDigit_iff_toNat.1 h
  have hlow' : 48 ≤ c.toNat := hlow
  have hhigh' : c.toNat ≤ 57 := hhigh
  have hlt : c.toNat - 48 < 10 := by omega
  refine ⟨hlt, Char.toNat_inj.1 ?_⟩
  rw [Nat.toNat_digitChar_of_lt_ten hlt]
  omega

theorem value_append (c : Char) : value (digits ++ [c]) = 10 * value digits + (c.toNat - 48) := by
  rw [value, value, Nat.ofDigitChars_append, Nat.ofDigitChars_cons, Nat.ofDigitChars_nil]
  rfl

theorem value_lt (h : IsDigits digits) : value digits < 10 ^ digits.length := by
  induction digits using List.reverseRecOn with
  | nil => exact Nat.one_pos
  | append_singleton digits c ih =>
      have hdigits : IsDigits digits := fun d hd => h d (List.mem_append_left _ hd)
      obtain ⟨hc, -⟩ :=
        digitChar_of_isDigit (h c (List.mem_append_right _ List.mem_cons_self))
      have hlt := ih hdigits
      rw [value_append, List.length_append, List.length_singleton, Nat.pow_succ]
      omega

/-- One more digit on the right takes one more place. -/
theorem padded_succ {d : Nat} (hwidth : 0 < width) (hd : d < 10) :
    padded (width + 1) (10 * n + d) = padded width n ++ [d.digitChar] := by
  rcases Nat.eq_zero_or_pos n with rfl | hn
  · rw [Nat.mul_zero, Nat.zero_add, padded, padded, Nat.toDigits_of_lt_base hd, Nat.toDigits_zero,
      List.length_singleton, List.length_singleton, Nat.add_sub_cancel]
    obtain ⟨w, rfl⟩ : ∃ w, width = w + 1 := ⟨width - 1, by omega⟩
    rw [Nat.add_sub_cancel, ← List.replicate_succ']
  · rw [padded, padded, ← Nat.toDigits_append_toDigits (by decide) hn hd,
      Nat.toDigits_of_lt_base hd, List.length_append, List.length_singleton, Nat.add_sub_add_right,
      List.append_assoc]

/-- A text of digits is the print of its value in its own width. -/
theorem padded_value (h : IsDigits digits) (hne : digits ≠ []) :
    padded digits.length (value digits) = digits := by
  induction digits using List.reverseRecOn with
  | nil => exact absurd rfl hne
  | append_singleton digits c ih =>
      have hdigits : IsDigits digits := fun d hd => h d (List.mem_append_left _ hd)
      obtain ⟨hlt, hchar⟩ :=
        digitChar_of_isDigit (h c (List.mem_append_right _ List.mem_cons_self))
      rw [value_append, List.length_append, List.length_singleton]
      by_cases hfull : digits = []
      · subst hfull
        rw [value, Nat.ofDigitChars_nil, Nat.mul_zero, Nat.zero_add, padded,
          Nat.toDigits_of_lt_base hlt, hchar]
        rfl
      · rw [padded_succ (List.length_pos_iff.2 hfull) hlt, ih hdigits hfull, hchar]

/-- In a smaller width the print of its value is the same text, unless it starts with a zero. -/
theorem padded_value_eq_iff (h : IsDigits digits) (hwidth : 0 < width)
    (hle : width ≤ digits.length) :
    padded width (value digits) = digits ↔
      digits.length = width ∨ digits.head? ≠ some '0' := by
  have hne : digits ≠ [] := List.length_pos_iff.1 (by omega)
  have hself := padded_value h hne
  rcases Nat.eq_or_lt_of_le hle with heq | hlt
  · rw [heq, hself]
    simp
  · have hlength := @length_padded digits.length (value digits)
    rw [hself] at hlength
    constructor
    · intro hprint
      right
      intro hzero
      -- the print is longer than the width, so it has no fill
      have hfill : width - (Nat.toDigits 10 (value digits)).length = 0 := by
        have hwide := congrArg List.length hprint
        rw [length_padded] at hwide
        omega
      rw [padded, hfill, List.replicate_zero, List.nil_append] at hprint
      rw [← hprint] at hzero
      have hvalue := head?_toDigits hzero
      rw [hvalue, Nat.toDigits_zero] at hprint
      rw [← hprint, List.length_singleton] at hlt
      omega
    · intro hcanonical
      have hzero : digits.head? ≠ some '0' := hcanonical.resolve_left (by omega)
      have hfull : (Nat.toDigits 10 (value digits)).length = digits.length := by
        by_contra hshort
        apply hzero
        have hfill : 0 < digits.length - (Nat.toDigits 10 (value digits)).length := by omega
        obtain ⟨fill, hfill⟩ : ∃ fill,
            digits.length - (Nat.toDigits 10 (value digits)).length = fill + 1 :=
          ⟨_, (Nat.sub_add_cancel hfill).symm⟩
        rw [← hself, padded, hfill, List.replicate_succ, List.cons_append, List.head?_cons]
      rw [padded, hfull, Nat.sub_eq_zero_of_le hle, List.replicate_zero, List.nil_append]
      rw [padded, hfull, Nat.sub_self, List.replicate_zero, List.nil_append] at hself
      exact hself

/-! ## Order -/

/-- The print of a number in no more places than it takes. -/
structure Canonical (digits : List Char) : Prop where
  ne_nil : digits ≠ []
  isDigits : IsDigits digits
  no_leading : digits.length = 1 ∨ digits.head? ≠ some '0'

theorem Canonical.toDigits_value (h : Canonical digits) :
    Nat.toDigits 10 (value digits) = digits := by
  have hprint := (padded_value_eq_iff h.isDigits Nat.one_pos
    (List.length_pos_iff.2 h.ne_nil)).2 h.no_leading
  have hpos : 0 < (Nat.toDigits 10 (value digits)).length :=
    List.length_pos_iff.2 Nat.toDigits_ne_nil
  rwa [padded, Nat.sub_eq_zero_of_le hpos, List.replicate_zero, List.nil_append] at hprint

theorem canonical_toDigits (n : Nat) : Canonical (Nat.toDigits 10 n) := by
  refine ⟨Nat.toDigits_ne_nil, fun c hc => Nat.isDigit_of_mem_toDigits (by decide) (by decide) hc,
    ?_⟩
  by_cases hzero : (Nat.toDigits 10 n).head? = some '0'
  · left
    rw [head?_toDigits hzero]
    rfl
  · exact .inr hzero

theorem value_cons (c : Char) :
    value (c :: digits) = (c.toNat - 48) * 10 ^ digits.length + value digits := by
  rw [value, Nat.ofDigitChars_cons, Nat.ofDigitChars_eq_ofDigitChars_zero, Nat.mul_zero,
    Nat.zero_add, Nat.mul_comm]
  rfl

variable {digits' : List Char}

/-- Texts of one length are ordered as their values. -/
theorem lt_iff_value_lt (h : IsDigits digits) (h' : IsDigits digits')
    (hlength : digits.length = digits'.length) : digits < digits' ↔ value digits < value digits' := by
  induction digits generalizing digits' with
  | nil =>
      cases digits' with
      | nil => simp
      | cons d digits' => cases hlength
  | cons c digits ih =>
      cases digits' with
      | nil => cases hlength
      | cons d digits' =>
          obtain ⟨hc, hdigits⟩ := List.forall_mem_cons.1 h
          obtain ⟨hd, hdigits'⟩ := List.forall_mem_cons.1 h'
          have hlength := Nat.succ.inj hlength
          have hlow : 48 ≤ c.toNat := (Char.isDigit_iff_toNat.1 hc).1
          have hlow' : 48 ≤ d.toNat := (Char.isDigit_iff_toNat.1 hd).1
          have hvalue := value_lt hdigits
          have hvalue' := value_lt hdigits'
          rw [← hlength] at hvalue'
          have hcd : c < d ↔ c.toNat - 48 < d.toNat - 48 := by
            rw [Char.lt_def, UInt32.lt_iff_toNat_lt]
            change c.toNat < d.toNat ↔ _
            omega
          have hsame : c = d ↔ c.toNat - 48 = d.toNat - 48 := by
            rw [← Char.toNat_inj]
            omega
          rw [List.cons_lt_cons_iff, value_cons, value_cons, ← hlength, ih hdigits hdigits' hlength,
            hcd, hsame]
          -- the first digit decides unless it is the same
          constructor
          · rintro (hlt | ⟨heq, hlt⟩)
            · have hmul := Nat.mul_le_mul_right (10 ^ digits.length) (Nat.succ_le_of_lt hlt)
              rw [Nat.succ_mul] at hmul
              omega
            · rw [heq]
              omega
          · intro hlt
            rcases Nat.lt_trichotomy (c.toNat - 48) (d.toNat - 48) with hcase | hcase | hcase
            · exact .inl hcase
            · rw [hcase] at hlt
              exact .inr ⟨hcase, by omega⟩
            · have hmul := Nat.mul_le_mul_right (10 ^ digits.length) (Nat.succ_le_of_lt hcase)
              rw [Nat.succ_mul] at hmul
              omega

/-- A longer text without leading zero has the larger value. -/
theorem Canonical.value_lt_of_length_lt (h : IsDigits digits) (h' : Canonical digits')
    (hlength : digits.length < digits'.length) : value digits < value digits' ∨ digits = [] := by
  cases digits' with
  | nil => exact absurd hlength (Nat.not_lt_zero _)
  | cons d rest =>
      by_cases hnil : digits = []
      · exact .inr hnil
      have hpos := List.length_pos_iff.2 hnil
      have hnonzero : d ≠ '0' := by
        rintro rfl
        rcases h'.no_leading with hone | hhead
        · rw [List.length_cons] at hone hlength
          omega
        · exact hhead rfl
      have hdigit : 48 ≤ d.toNat :=
        (Char.isDigit_iff_toNat.1 (h'.isDigits d List.mem_cons_self)).1
      have hlarge : 1 ≤ d.toNat - 48 := by
        have hne : d.toNat ≠ 48 := fun heq => hnonzero (Char.toNat_inj.1 heq)
        omega
      left
      calc value digits < 10 ^ digits.length := value_lt h
        _ ≤ 10 ^ rest.length := Nat.pow_le_pow_right (by decide) (Nat.le_of_lt_succ hlength)
        _ ≤ (d.toNat - 48) * 10 ^ rest.length := Nat.le_mul_of_pos_left _ hlarge
        _ ≤ value (d :: rest) := by
            rw [value_cons]
            exact Nat.le_add_right _ _

/-- Numbers are compared by length first and then as texts. -/
theorem Canonical.cmp_eq (h : Canonical digits) (h' : Canonical digits') :
    (cmp digits.length digits'.length).then (cmp digits digits') =
      cmp (value digits) (value digits') := by
  rcases Nat.lt_trichotomy digits.length digits'.length with hlt | heq | hlt
  · rw [hlt.cmp_eq_lt]
    exact (((h'.value_lt_of_length_lt h.isDigits hlt).resolve_right h.ne_nil).cmp_eq_lt).symm
  · rw [heq.cmp_eq_eq, Ordering.eq_then]
    have hlt := lt_iff_value_lt h.isDigits h'.isDigits heq
    have hgt := lt_iff_value_lt h'.isDigits h.isDigits heq.symm
    by_cases hcase : value digits < value digits'
    · rw [hcase.cmp_eq_lt]
      exact if_pos (hlt.2 hcase)
    by_cases hcase' : value digits' < value digits
    · rw [hcase'.cmp_eq_gt]
      exact (if_neg (mt hlt.1 hcase)).trans (if_pos (hgt.2 hcase'))
    · rw [(Nat.le_antisymm (not_lt.1 hcase') (not_lt.1 hcase)).cmp_eq_eq]
      exact (if_neg (mt hlt.1 hcase)).trans (if_neg (mt hgt.1 hcase'))
  · rw [hlt.cmp_eq_gt]
    exact (((h.value_lt_of_length_lt h'.isDigits hlt).resolve_right h'.ne_nil).cmp_eq_gt).symm

end Decimal
end Superi

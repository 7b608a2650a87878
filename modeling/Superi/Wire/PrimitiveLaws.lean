import Superi.Lib.Delimited
import Superi.Wire.Primitives

/-!
# PrimitiveLaws — what is accepted is what would be written

Every primitive is read back from what it is written as, and a document without arrays is accepted
in one spelling only.  The derived readers of records also accept an array of the fields, which is
never what is written.
-/

namespace Superi
namespace Serialization

open Core Result Json
open Editorial (ChannelPosition)

/-! ## Integers -/

/-- The digits a canonical integer has behind its sign, other than a single zero. -/
structure Leading (digits : List Char) : Prop where
  ne_nil : digits ≠ []
  head : digits.head? ≠ some '0'
  isDigits : Decimal.IsDigits digits

theorem not_leading_iff {digits : List Char} :
    ¬ (digits = [] ∨ digits.head? = some '0' ∨ ¬ Decimal.IsDigits digits) ↔ Leading digits := by
  constructor
  · intro h
    obtain ⟨hne, hhead, hdigits⟩ := not_or.1 h |>.imp id not_or.1
    exact ⟨hne, hhead, not_not.1 hdigits⟩
  · rintro ⟨hne, hhead, hdigits⟩ (h | h | h)
    · exact hne h
    · exact hhead h
    · exact h hdigits

theorem Leading.toDigits_value {digits : List Char} (h : Leading digits) :
    Nat.toDigits 10 (Decimal.value digits) = digits :=
  Decimal.Canonical.toDigits_value ⟨h.ne_nil, h.isDigits, .inr h.head⟩

theorem leading_toDigits {n : Nat} (h : n ≠ 0) : Leading (Nat.toDigits 10 n) where
  ne_nil := Nat.toDigits_ne_nil
  head hhead := h (Decimal.head?_toDigits hhead)
  isDigits := (Decimal.canonical_toDigits n).isDigits

theorem value_toDigits (n : Nat) : Decimal.value (Nat.toDigits 10 n) = n := by
  have hvalue : Decimal.value (Decimal.padded 0 n) = n := Decimal.value_padded
  rwa [Decimal.padded, Nat.zero_sub, List.replicate_zero, List.nil_append] at hvalue

theorem Leading.ne_zero {digits : List Char} (h : Leading digits) : digits ≠ ['0'] := by
  rintro rfl
  exact h.head rfl

theorem toDigits_zero : Nat.toDigits 10 0 = ['0'] := by decide

theorem parseCanonicalU64_eq_ok {text : List Char} {value : U64} :
    parseCanonicalU64 text = .ok value ↔ displayU64 value = text := by
  obtain ⟨n, hfits⟩ := value
  unfold parseCanonicalU64 displayU64
  constructor
  · intro h
    split at h
    · rename_i hzero
      cases h
      rw [hzero]
      exact toDigits_zero
    · split at h
      · cases h
      · rename_i hleading
        split at h
        · cases h
          exact (not_leading_iff.1 hleading).toDigits_value
        · cases h
  · rintro rfl
    by_cases hzero : n = 0
    · subst hzero
      rw [toDigits_zero, if_pos rfl]
    · have hleading := leading_toDigits hzero
      rw [if_neg hleading.ne_zero, if_neg (not_leading_iff.2 hleading),
        dif_pos (by rwa [value_toDigits])]
      simp only [value_toDigits]

theorem stripMinus_eq_some {text digits : List Char} :
    stripMinus text = some digits ↔ text = '-' :: digits := by
  unfold stripMinus
  split
  · rw [Option.some_inj, List.cons.injEq, and_iff_right rfl]
  · rename_i hother
    exact ⟨fun h => (by cases h), fun h => absurd h (hother digits)⟩

theorem Leading.stripMinus {digits : List Char} (h : Leading digits) :
    Serialization.stripMinus digits = none := by
  cases hstrip : Serialization.stripMinus digits with
  | none => rfl
  | some rest =>
      rw [stripMinus_eq_some] at hstrip
      exact absurd (h.isDigits '-' (hstrip ▸ List.mem_cons_self)) (by decide)

/-- The table of speakers: no code twice, each the text of its position and no discrete channel. -/
theorem speakers_codes : (speakers.map fun entry => entry.2.toList).Nodup ∧
    ∀ entry ∈ speakers, displayPosition entry.1 = entry.2.toList ∧
      ¬ discretePrefix <+: entry.2.toList := by
  decide +kernel

theorem displayPosition_speaker {entry : ChannelPosition × String} (h : entry ∈ speakers) :
    displayPosition entry.1 = entry.2.toList :=
  (speakers_codes.2 entry h).1

theorem displayPosition_parse {code : List Char} {position : ChannelPosition}
    (h : parsePosition code = .ok position) : displayPosition position = code := by
  unfold parsePosition at h
  split at h
  · rename_i entry hfind
    cases h
    rw [displayPosition_speaker (List.mem_of_find?_eq_some hfind)]
    simpa using List.find?_some hfind
  · simp only [okOr_eq_ok, bind_eq_ok] at h
    obtain ⟨digits, hdigits, index, hindex, h⟩ := h
    split at h
    · rename_i hlt
      cases h
      obtain ⟨front, hcode, hfront⟩ := List.dropPrefix?_eq_some_iff.1 hdigits
      rw [displayPosition, BitVec.toNat_ofNat, Nat.mod_eq_of_lt hlt, hcode, eq_of_beq hfront,
        ← parseCanonicalU64_eq_ok.1 hindex]
      rfl
    · cases h

theorem position_eq {json : Json} {position : ChannelPosition}
    (h : channelPosition.deserialize json = .ok position) :
    json = channelPosition.serialize position := by
  cases json with
  | text code =>
      have heq := displayPosition_parse (mapError_eq_ok.1 h)
      rw [← heq]
      rfl
  | null => cases h
  | bool _ => cases h
  | integer _ => cases h
  | real _ => cases h
  | array _ => cases h
  | object _ => cases h

end Serialization
end Superi

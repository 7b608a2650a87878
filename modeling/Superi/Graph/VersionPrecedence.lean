import Mathlib
import Superi.Graph.VersionText

/-!
# VersionPrecedence — which of two versions is newer

The comparison of the program walks through the parts of two versions.  The precedence of the
specification is the order of a key: three numbers, and then the list of identifiers, each a number
or a text, where the version without identifiers stands above all.
-/

namespace Superi
namespace Graph

open Result

/-! ## Comparison -/

/-- `str::cmp` goes by code points; all digits are of one byte. -/
def comparePreReleaseIdentifier (left right : List Char) : Ordering :=
  match decide (Decimal.IsDigits left), decide (Decimal.IsDigits right) with
  | true, true => (cmp left.length right.length).then (cmp left right)
  | true, false => .lt
  | false, true => .gt
  | false, false => cmp left right

def comparePreReleaseParts : List (List Char) → List (List Char) → Ordering
  | [], [] => .eq
  | [], _ :: _ => .lt
  | _ :: _, [] => .gt
  | left :: lefts, right :: rights =>
      match comparePreReleaseIdentifier left right with
      | .eq => comparePreReleaseParts lefts rights
      | ordering => ordering

def comparePreRelease : Option String → Option String → Ordering
  | none, none => .eq
  | none, some _ => .gt
  | some _, none => .lt
  | some left, some right =>
      comparePreReleaseParts (left.toList.splitOn '.') (right.toList.splitOn '.')

def SemanticVersion.precedenceCmp (version other : SemanticVersion) : Ordering :=
  match (cmp version.major other.major).then
    ((cmp version.minor other.minor).then (cmp version.patch other.patch)) with
  | .eq => comparePreRelease version.preRelease other.preRelease
  | ordering => ordering

/-! ## Precedence -/

/-- A number stands below every text. -/
def identifierRank (identifier : List Char) : Lex (Nat ⊕ List Char) :=
  if Decimal.IsDigits identifier then Sum.inlₗ (Decimal.value identifier)
  else Sum.inrₗ identifier

/-- What a pre-release is ordered by; a release stands above all. -/
def preReleaseRank (preRelease : Option String) : WithTop (List (Lex (Nat ⊕ List Char))) :=
  match preRelease with
  | none => ⊤
  | some text => ((text.toList.splitOn '.').map identifierRank : List _)

/-- What a version is ordered by. -/
def SemanticVersion.precedence (version : SemanticVersion) :
    Nat ×ₗ Nat ×ₗ Nat ×ₗ WithTop (List (Lex (Nat ⊕ List Char))) :=
  toLex (version.major, toLex (version.minor, toLex (version.patch,
    preReleaseRank version.preRelease)))

/-! ## Comparing by a key -/

section Compares

variable {α β : Type*} [LinearOrder α] [LinearOrder β] {a a' : α} {b b' : β} {o o' : Ordering}

theorem compares_prod (h : o.Compares a a') (h' : o'.Compares b b') :
    (o.then o').Compares (toLex (a, b)) (toLex (a', b')) := by
  cases o with
  | lt => exact Prod.Lex.toLex_lt_toLex.2 (.inl h)
  | gt => exact Prod.Lex.toLex_lt_toLex.2 (.inl h)
  | eq =>
      obtain rfl : a = a' := h
      cases o' with
      | lt => exact Prod.Lex.toLex_lt_toLex.2 (.inr ⟨rfl, h'⟩)
      | gt => exact Prod.Lex.toLex_lt_toLex.2 (.inr ⟨rfl, h'⟩)
      | eq =>
          obtain rfl : b = b' := h'
          rfl

theorem compares_cons {as as' : List α} (h : o.Compares a a') (h' : o'.Compares as as') :
    (o.then o').Compares (a :: as) (a' :: as') := by
  cases o with
  | lt => exact List.cons_lt_cons_iff.2 (.inl h)
  | gt => exact List.cons_lt_cons_iff.2 (.inl h)
  | eq =>
      obtain rfl : a = a' := h
      cases o' with
      | lt => exact List.cons_lt_cons_iff.2 (.inr ⟨rfl, h'⟩)
      | gt => exact List.cons_lt_cons_iff.2 (.inr ⟨rfl, h'⟩)
      | eq =>
          obtain rfl : as = as' := h'
          rfl

end Compares

/-! ## Identifiers -/

/-- A numeric identifier has no leading zero. -/
def Unpadded (identifier : List Char) : Prop :=
  Decimal.IsDigits identifier → Decimal.Canonical identifier

variable {left right : List Char}

theorem cmp_text_compares (left right : List Char) : (cmp left right).Compares left right := by
  rcases lt_trichotomy left right with h | h | h
  · have hcmp : cmp left right = .lt := if_pos h
    rw [hcmp]
    exact h
  · subst h
    have hcmp : cmp left left = .eq := (if_neg (lt_irrefl left)).trans (if_neg (lt_irrefl left))
    rw [hcmp]
    rfl
  · have hcmp : cmp left right = .gt := (if_neg (lt_asymm h)).trans (if_pos h)
    rw [hcmp]
    exact h

theorem comparePreReleaseIdentifier_compares (hleft : Unpadded left) (hright : Unpadded right) :
    (comparePreReleaseIdentifier left right).Compares (identifierRank left)
      (identifierRank right) := by
  unfold comparePreReleaseIdentifier identifierRank
  by_cases hl : Decimal.IsDigits left
  · by_cases hr : Decimal.IsDigits right
    · simp only [hl, hr, decide_true, if_true]
      rw [(hleft hl).cmp_eq (hright hr)]
      have h := cmp_compares (Decimal.value left) (Decimal.value right)
      cases hcmp : cmp (Decimal.value left) (Decimal.value right) <;> rw [hcmp] at h
      · exact Sum.Lex.inl_lt_inl_iff.2 h
      · exact congrArg Sum.inlₗ h
      · exact Sum.Lex.inl_lt_inl_iff.2 h
    · simp only [hl, hr, decide_true, decide_false, if_true, if_false]
      exact Sum.Lex.inl_lt_inr _ _
  · by_cases hr : Decimal.IsDigits right
    · simp only [hl, hr, decide_true, decide_false, if_true, if_false]
      exact Sum.Lex.inl_lt_inr _ _
    · simp only [hl, hr, decide_false, if_false]
      have h := cmp_text_compares left right
      cases hcmp : cmp left right <;> rw [hcmp] at h
      · exact Sum.Lex.inr_lt_inr_iff.2 h
      · exact congrArg Sum.inrₗ h
      · exact Sum.Lex.inr_lt_inr_iff.2 h

/-- The first difference decides; without one the shorter list stands below. -/
theorem comparePreReleaseParts_compares {lefts rights : List (List Char)}
    (hlefts : ∀ left ∈ lefts, Unpadded left) (hrights : ∀ right ∈ rights, Unpadded right) :
    (comparePreReleaseParts lefts rights).Compares (lefts.map identifierRank)
      (rights.map identifierRank) := by
  induction lefts generalizing rights with
  | nil =>
      cases rights with
      | nil => rfl
      | cons right rights => exact List.nil_lt_cons _ _
  | cons left lefts ih =>
      cases rights with
      | nil => exact List.nil_lt_cons _ _
      | cons right rights =>
          obtain ⟨hleft, hlefts⟩ := List.forall_mem_cons.1 hlefts
          obtain ⟨hright, hrights⟩ := List.forall_mem_cons.1 hrights
          have hthen : comparePreReleaseParts (left :: lefts) (right :: rights) =
              (comparePreReleaseIdentifier left right).then
                (comparePreReleaseParts lefts rights) := by
            rw [comparePreReleaseParts]
            cases comparePreReleaseIdentifier left right <;> rfl
          rw [hthen]
          exact compares_cons (comparePreReleaseIdentifier_compares hleft hright)
            (ih hlefts hrights)

/-! ## Versions -/

/-- An accepted pre-release has identifiers without leading zeros. -/
theorem unpadded_of_validate {text : List Char}
    (h : validateSection .preRelease true text = .ok ()) :
    ∀ identifier ∈ text.splitOn '.', Unpadded identifier := by
  intro identifier hmem hdigits
  obtain ⟨hne, -, hzero⟩ := validateSection_eq_ok.1 h identifier hmem
  have hpos := List.length_pos_iff.2 hne
  refine ⟨hne, hdigits, ?_⟩
  by_cases hlong : 1 < identifier.length
  · exact .inr fun hhead => hzero ⟨rfl, hlong, hdigits, hhead⟩
  · exact .inl (by omega)

namespace SemanticVersion

variable {version other : SemanticVersion}

theorem comparePreRelease_compares (h : version.Valid) (h' : other.Valid) :
    (comparePreRelease version.preRelease other.preRelease).Compares
      (preReleaseRank version.preRelease) (preReleaseRank other.preRelease) := by
  cases hpre : version.preRelease with
  | none =>
      cases hpre' : other.preRelease with
      | none => rfl
      | some right => exact WithTop.coe_lt_top _
  | some left =>
      cases hpre' : other.preRelease with
      | none => exact WithTop.coe_lt_top _
      | some right =>
          have hparts := comparePreReleaseParts_compares
            (unpadded_of_validate (h.preRelease left hpre))
            (unpadded_of_validate (h'.preRelease right hpre'))
          change (comparePreReleaseParts _ _).Compares _ _
          cases hcmp : comparePreReleaseParts (left.toList.splitOn '.')
            (right.toList.splitOn '.') <;> rw [hcmp] at hparts
          · exact WithTop.coe_lt_coe.2 hparts
          · exact congrArg WithTop.some hparts
          · exact WithTop.coe_lt_coe.2 hparts

/-- The comparison of two versions is the order of their keys. -/
theorem precedenceCmp_compares (h : version.Valid) (h' : other.Valid) :
    (version.precedenceCmp other).Compares version.precedence other.precedence := by
  have hthen : version.precedenceCmp other = (cmp version.major other.major).then
      ((cmp version.minor other.minor).then ((cmp version.patch other.patch).then
        (comparePreRelease version.preRelease other.preRelease))) := by
    unfold precedenceCmp
    cases cmp version.major other.major <;> cases cmp version.minor other.minor <;>
      cases cmp version.patch other.patch <;> rfl
  rw [hthen]
  exact compares_prod (cmp_compares _ _) (compares_prod (cmp_compares _ _)
    (compares_prod (cmp_compares _ _) (comparePreRelease_compares h h')))

/-- Identifiers of one rank are the same. -/
theorem identifierRank_injective (hleft : Unpadded left) (hright : Unpadded right)
    (h : identifierRank left = identifierRank right) : left = right := by
  unfold identifierRank at h
  split_ifs at h with hl hr hr
  · have hvalue : Decimal.value left = Decimal.value right := Sum.inl.inj h
    rw [← (hleft hl).toDigits_value, hvalue, (hright hr).toDigits_value]
  · cases h
  · cases h
  · exact Sum.inr.inj h

theorem identifierRanks_injective {lefts rights : List (List Char)}
    (hlefts : ∀ left ∈ lefts, Unpadded left) (hrights : ∀ right ∈ rights, Unpadded right)
    (h : lefts.map identifierRank = rights.map identifierRank) : lefts = rights := by
  induction lefts generalizing rights with
  | nil => exact (List.map_eq_nil_iff.1 h.symm).symm
  | cons left lefts ih =>
      cases rights with
      | nil => cases h
      | cons right rights =>
          obtain ⟨hleft, hlefts⟩ := List.forall_mem_cons.1 hlefts
          obtain ⟨hright, hrights⟩ := List.forall_mem_cons.1 hrights
          obtain ⟨hhead, htail⟩ := List.cons.inj h
          rw [identifierRank_injective hleft hright hhead, ih hlefts hrights htail]

/-- Versions of one precedence differ at most in their build metadata. -/
theorem precedence_inj (h : version.Valid) (h' : other.Valid)
    (heq : version.precedence = other.precedence) :
    { version with buildMetadata := other.buildMetadata } = other := by
  obtain ⟨hmajor, heq⟩ := Prod.mk.inj (toLex_inj.1 heq)
  obtain ⟨hminor, heq⟩ := Prod.mk.inj (toLex_inj.1 heq)
  obtain ⟨hpatch, heq⟩ := Prod.mk.inj (toLex_inj.1 heq)
  have hpre : version.preRelease = other.preRelease := by
    cases hleft : version.preRelease with
    | none =>
        cases hright : other.preRelease with
        | none => rfl
        | some right =>
            rw [hleft, hright] at heq
            exact absurd heq.symm (WithTop.coe_ne_top)
    | some left =>
        cases hright : other.preRelease with
        | none =>
            rw [hleft, hright] at heq
            exact absurd heq WithTop.coe_ne_top
        | some right =>
            rw [hleft, hright] at heq
            have hparts := identifierRanks_injective
              (unpadded_of_validate (h.preRelease left hleft))
              (unpadded_of_validate (h'.preRelease right hright)) (WithTop.coe_inj.1 heq)
            have htext := congrArg ['.'].intercalate hparts
            rw [List.intercalate_splitOn, List.intercalate_splitOn] at htext
            rw [String.toList_inj.1 htext]
  cases version
  cases other
  simp_all

end SemanticVersion

end Graph
end Superi

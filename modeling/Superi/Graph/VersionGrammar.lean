import Superi.Graph.VersionPrecedence

/-!
# VersionGrammar — versions by the specification

The grammar of the specification, with what each derivation stands for.  Parsing finds the version
of a derivation wherever there is one whose numbers fit 64 bits.
-/

namespace Superi
namespace Graph

open Result

/-! ## The grammar -/

/-- `<numeric identifier>`. -/
inductive NumericIdentifier : List Char → Prop
  | zero : NumericIdentifier ['0']
  | positive {c : Char} {rest : List Char} (hc : c.isDigit = true) (hne : c ≠ '0')
      (hrest : Decimal.IsDigits rest) : NumericIdentifier (c :: rest)

/-- `<alphanumeric identifier>`: at least one character is no digit. -/
def AlphanumericIdentifier (text : List Char) : Prop :=
  (∀ c ∈ text, isIdentifierChar c = true) ∧ ∃ c ∈ text, c.isDigit = false

def PreReleaseIdentifier (text : List Char) : Prop :=
  NumericIdentifier text ∨ AlphanumericIdentifier text

/-- `<build identifier>`: an alphanumeric identifier, or digits. -/
def BuildIdentifier (text : List Char) : Prop :=
  AlphanumericIdentifier text ∨ (text ≠ [] ∧ Decimal.IsDigits text)

/-- A derivation of `<valid semver>`, by the texts of its parts. -/
structure Derivation where
  major : List Char
  minor : List Char
  patch : List Char
  preRelease : Option (List (List Char))
  build : Option (List (List Char))

namespace Derivation

variable (derivation : Derivation)

/-- Identifiers with dots between them. -/
def dotted (identifiers : List (List Char)) : List Char := ['.'].intercalate identifiers

def text : List Char :=
  derivation.major ++ '.' :: (derivation.minor ++ '.' :: derivation.patch) ++
    (derivation.preRelease.map fun identifiers => '-' :: dotted identifiers).getD [] ++
    (derivation.build.map fun identifiers => '+' :: dotted identifiers).getD []

/-- The parts are what the grammar asks for. -/
structure Correct : Prop where
  major : NumericIdentifier derivation.major
  minor : NumericIdentifier derivation.minor
  patch : NumericIdentifier derivation.patch
  preRelease : ∀ identifiers, derivation.preRelease = some identifiers →
    identifiers ≠ [] ∧ ∀ identifier ∈ identifiers, PreReleaseIdentifier identifier
  build : ∀ identifiers, derivation.build = some identifiers →
    identifiers ≠ [] ∧ ∀ identifier ∈ identifiers, BuildIdentifier identifier

/-- The numbers of the core fit 64 bits. -/
def Fits : Prop :=
  Decimal.value derivation.major < 2 ^ 64 ∧ Decimal.value derivation.minor < 2 ^ 64 ∧
    Decimal.value derivation.patch < 2 ^ 64

/-- What the text stands for. -/
def version : SemanticVersion where
  major := Decimal.value derivation.major
  minor := Decimal.value derivation.minor
  patch := Decimal.value derivation.patch
  preRelease := derivation.preRelease.map fun identifiers => String.ofList (dotted identifiers)
  buildMetadata := derivation.build.map fun identifiers => String.ofList (dotted identifiers)

end Derivation

/-! ## Identifiers -/

variable {identifier text : List Char}

theorem numericIdentifier_iff : NumericIdentifier identifier ↔ Decimal.Canonical identifier := by
  constructor
  · intro h
    cases h with
    | zero => exact ⟨by decide, by decide, .inl rfl⟩
    | positive hc hne hrest =>
        refine ⟨List.cons_ne_nil _ _, List.forall_mem_cons.2 ⟨hc, hrest⟩, .inr fun hhead => ?_⟩
        exact hne (Option.some.inj hhead)
  · rintro ⟨hne, hdigits, hleading⟩
    cases identifier with
    | nil => exact absurd rfl hne
    | cons c rest =>
        obtain ⟨hc, hrest⟩ := List.forall_mem_cons.1 hdigits
        by_cases hzero : c = '0'
        · subst hzero
          rcases hleading with hone | hhead
          · rw [List.length_eq_zero_iff.1 (Nat.succ.inj hone)]
            exact .zero
          · exact absurd rfl hhead
        · exact .positive hc hzero hrest

theorem isIdentifierChar_of_isDigit {c : Char} (h : c.isDigit = true) :
    isIdentifierChar c = true := by
  simp [isIdentifierChar, Char.isAlphanum, h]

/-- What validation asks of an identifier. -/
theorem buildIdentifier_iff : BuildIdentifier identifier ↔
    identifier ≠ [] ∧ ∀ c ∈ identifier, isIdentifierChar c = true := by
  constructor
  · rintro (⟨hchars, c, hc, -⟩ | ⟨hne, hdigits⟩)
    · exact ⟨List.ne_nil_of_mem hc, hchars⟩
    · exact ⟨hne, fun c hc => isIdentifierChar_of_isDigit (hdigits c hc)⟩
  · rintro ⟨hne, hchars⟩
    by_cases hdigits : Decimal.IsDigits identifier
    · exact .inr ⟨hne, hdigits⟩
    · left
      unfold Decimal.IsDigits at hdigits
      push Not at hdigits
      obtain ⟨c, hc, hdigit⟩ := hdigits
      exact ⟨hchars, c, hc, by simpa using hdigit⟩

/-- In a pre-release, digits have no leading zero. -/
theorem preReleaseIdentifier_iff : PreReleaseIdentifier identifier ↔
    BuildIdentifier identifier ∧ Unpadded identifier := by
  constructor
  · rintro (hnumeric | ⟨hchars, c, hc, hdigit⟩)
    · have hcanonical := numericIdentifier_iff.1 hnumeric
      exact ⟨.inr ⟨hcanonical.ne_nil, hcanonical.isDigits⟩, fun _ => hcanonical⟩
    · refine ⟨.inl ⟨hchars, c, hc, hdigit⟩, fun hdigits => ?_⟩
      rw [hdigits c hc] at hdigit
      cases hdigit
  · rintro ⟨halpha | ⟨hne, hdigits⟩, hunpadded⟩
    · exact .inr halpha
    · exact .inl (numericIdentifier_iff.2 (hunpadded hdigits))

theorem validateSection_build_iff : validateSection .buildMetadata false text = .ok () ↔
    ∀ identifier ∈ text.splitOn '.', BuildIdentifier identifier := by
  rw [validateSection_eq_ok]
  refine forall₂_congr fun identifier _ => ?_
  rw [buildIdentifier_iff]
  simp

theorem validateSection_preRelease_iff : validateSection .preRelease true text = .ok () ↔
    ∀ identifier ∈ text.splitOn '.', PreReleaseIdentifier identifier := by
  constructor
  · intro h identifier hmem
    obtain ⟨hne, hchars, -⟩ := validateSection_eq_ok.1 h identifier hmem
    exact preReleaseIdentifier_iff.2
      ⟨buildIdentifier_iff.2 ⟨hne, hchars⟩, unpadded_of_validate h identifier hmem⟩
  · intro h
    refine validateSection_eq_ok.2 fun identifier hmem => ?_
    obtain ⟨hbuild, hunpadded⟩ := preReleaseIdentifier_iff.1 (h identifier hmem)
    obtain ⟨hne, hchars⟩ := buildIdentifier_iff.1 hbuild
    refine ⟨hne, hchars, ?_⟩
    rintro ⟨-, hlong, hdigits, hhead⟩
    rcases (hunpadded hdigits).no_leading with hone | hne
    · omega
    · exact hne hhead

/-- No identifier holds a dot. -/
theorem dot_not_mem (h : BuildIdentifier identifier) : '.' ∉ identifier := by
  intro hmem
  exact absurd ((buildIdentifier_iff.1 h).2 '.' hmem) (by decide)

/-- The identifiers between the dots. -/
theorem splitOn_dotted {identifiers : List (List Char)} (hne : identifiers ≠ [])
    (h : ∀ identifier ∈ identifiers, BuildIdentifier identifier) :
    (Derivation.dotted identifiers).splitOn '.' = identifiers :=
  List.splitOn_intercalate '.' (fun identifier hmem => dot_not_mem (h identifier hmem)) hne

/-! ## Parsing -/

namespace Derivation

variable {derivation : Derivation}

theorem Correct.valid (h : derivation.Correct) (hfits : derivation.Fits) :
    derivation.version.Valid := by
  refine ⟨hfits.1, hfits.2.1, hfits.2.2, ?_, ?_⟩
  · intro text htext
    obtain ⟨identifiers, hpre, rfl⟩ := Option.map_eq_some_iff.1 htext
    obtain ⟨hne, hall⟩ := h.preRelease identifiers hpre
    rw [String.toList_ofList, validateSection_preRelease_iff, splitOn_dotted hne fun identifier hmem =>
      (preReleaseIdentifier_iff.1 (hall identifier hmem)).1]
    exact hall
  · intro text htext
    obtain ⟨identifiers, hbuild, rfl⟩ := Option.map_eq_some_iff.1 htext
    obtain ⟨hne, hall⟩ := h.build identifiers hbuild
    rw [String.toList_ofList, validateSection_build_iff, splitOn_dotted hne hall]
    exact hall

theorem Correct.display_eq (h : derivation.Correct) :
    derivation.version.display.toList = derivation.text := by
  have hmajor := (numericIdentifier_iff.1 h.major).toDigits_value
  have hminor := (numericIdentifier_iff.1 h.minor).toDigits_value
  have hpatch := (numericIdentifier_iff.1 h.patch).toDigits_value
  rw [SemanticVersion.toList_display, text]
  refine congrArg₂ _ (congrArg₂ _ ?_ ?_) ?_
  · rw [SemanticVersion.coreText, version, hmajor, hminor, hpatch]
  · rw [SemanticVersion.preReleaseText, version]
    cases derivation.preRelease <;> simp
  · rw [SemanticVersion.buildText, version]
    cases derivation.build <;> simp

end Derivation

namespace SemanticVersion

variable {version : SemanticVersion}

/-- The parts a version is written with. -/
def derivation (version : SemanticVersion) : Derivation where
  major := Nat.toDigits 10 version.major
  minor := Nat.toDigits 10 version.minor
  patch := Nat.toDigits 10 version.patch
  preRelease := version.preRelease.map fun text => text.toList.splitOn '.'
  build := version.buildMetadata.map fun text => text.toList.splitOn '.'

theorem derivation_version (version : SemanticVersion) : version.derivation.version = version := by
  have hvalue : ∀ n, Decimal.value (Nat.toDigits 10 n) = n := fun _ =>
    Nat.ofDigitChars_ten_toDigits
  have hsection : ∀ field : Option String, (field.map fun text => text.toList.splitOn '.').map
      (fun identifiers => String.ofList (Derivation.dotted identifiers)) = field := by
    intro field
    cases field with
    | none => rfl
    | some text =>
        simp only [Option.map_some, Derivation.dotted, List.intercalate_splitOn,
          String.ofList_toList]
  rw [Derivation.version, derivation]
  simp only [hvalue, hsection]

theorem Valid.derivation_correct (h : version.Valid) : version.derivation.Correct := by
  have hnumber : ∀ n, NumericIdentifier (Nat.toDigits 10 n) := fun n =>
    numericIdentifier_iff.2 (Decimal.canonical_toDigits n)
  refine ⟨hnumber _, hnumber _, hnumber _, ?_, ?_⟩
  · intro identifiers hpre
    obtain ⟨text, htext, rfl⟩ := Option.map_eq_some_iff.1 hpre
    exact ⟨List.splitOn_ne_nil _ _, validateSection_preRelease_iff.1 (h.preRelease text htext)⟩
  · intro identifiers hbuild
    obtain ⟨text, htext, rfl⟩ := Option.map_eq_some_iff.1 hbuild
    exact ⟨List.splitOn_ne_nil _ _, validateSection_build_iff.1 (h.buildMetadata text htext)⟩

theorem Valid.derivation_fits (h : version.Valid) : version.derivation.Fits := by
  have hvalue : ∀ n, Decimal.value (Nat.toDigits 10 n) = n := fun _ =>
    Nat.ofDigitChars_ten_toDigits
  simp only [Derivation.Fits, derivation, hvalue]
  exact ⟨h.major, h.minor, h.patch⟩

/-- Parsing finds what a derivation stands for. -/
theorem parse_eq_ok {text : List Char} : parse text = .ok version ↔
    ∃ derivation : Derivation, derivation.Correct ∧ derivation.Fits ∧ derivation.text = text ∧
      derivation.version = version := by
  constructor
  · intro h
    have hvalid := valid_of_parse h
    refine ⟨version.derivation, hvalid.derivation_correct, hvalid.derivation_fits, ?_,
      version.derivation_version⟩
    rw [← hvalid.derivation_correct.display_eq, version.derivation_version, display_of_parse h]
  · rintro ⟨derivation, hcorrect, hfits, rfl, rfl⟩
    rw [← hcorrect.display_eq]
    exact parse_display (hcorrect.valid hfits)

/-! ## The contract -/

/-- Not after the other version. -/
def NotAfter (version other : SemanticVersion) : Prop := version.precedenceCmp other ≠ .gt

theorem notAfter_iff {other : SemanticVersion} (h : version.Valid) (h' : other.Valid) :
    version.NotAfter other ↔ version.precedence ≤ other.precedence := by
  have hcompares := precedenceCmp_compares h h'
  unfold NotAfter
  cases hcmp : version.precedenceCmp other <;> rw [hcmp] at hcompares
  · exact iff_of_true (by decide) (le_of_lt hcompares)
  · exact iff_of_true (by decide) (le_of_eq hcompares)
  · exact iff_of_false (by decide) (not_le_of_gt hcompares)

/-- Parsing succeeds on the grammar whose numbers fit, display and parsing are inverse, and the
comparison is the precedence of the specification, which only disregards build metadata. -/
theorem semantic_versions_follow_the_specification :
    (∀ (text : String) (version : SemanticVersion), parse text.toList = .ok version ↔
      ∃ derivation : Derivation, derivation.Correct ∧ derivation.Fits ∧
        derivation.text = text.toList ∧ derivation.version = version) ∧
    (∀ (text : String) (version : SemanticVersion), parse text.toList = .ok version →
      version.display = text ∧ version.Valid) ∧
    (∀ version : SemanticVersion, version.Valid → parse version.display.toList = .ok version) ∧
    (∀ version other : SemanticVersion, version.Valid → other.Valid →
      version.precedenceCmp other = cmp version.precedence other.precedence ∧
      (version.precedenceCmp other = .eq ↔
        { version with buildMetadata := other.buildMetadata } = other)) ∧
    (∀ version other third : SemanticVersion, version.Valid → other.Valid → third.Valid →
      (version.NotAfter other ∨ other.NotAfter version) ∧
      (version.NotAfter other → other.NotAfter third → version.NotAfter third)) := by
  refine ⟨fun text version => parse_eq_ok,
    fun text version h => ⟨String.toList_inj.1 (display_of_parse h), valid_of_parse h⟩,
    fun version h => parse_display h, fun version other h h' => ?_,
    fun version other third h h' h'' => ?_⟩
  · have hcmp := (precedenceCmp_compares h h').cmp_eq
    refine ⟨hcmp.symm, ?_⟩
    rw [← hcmp, cmp_eq_eq_iff]
    refine ⟨precedence_inj h h', fun heq => ?_⟩
    rw [← heq]
    rfl
  · rw [notAfter_iff h h', notAfter_iff h' h, notAfter_iff h' h'', notAfter_iff h h'']
    exact ⟨le_total _ _, le_trans⟩

example : precedenceCmp ⟨1, 0, 0, some "rc.9", none⟩ ⟨1, 0, 0, some "rc.10", some "7"⟩ = .lt := by
  decide +kernel

end SemanticVersion

end Graph
end Superi

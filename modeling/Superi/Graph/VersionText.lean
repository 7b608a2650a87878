import Mathlib
import Superi.Core.Error
import Superi.Graph.Node
import Superi.Lib.Decimal
import Superi.Lib.Result

/-!
# VersionText — semantic versions as text

Versions are stored as their text.  Reading the text of a version gives the version back: its
numbers are printed without leading zeros, and its identifiers hold none of the marks that set the
parts apart.
-/

namespace Superi
namespace Graph

open Result

inductive VersionSection
  | major
  | minor
  | patch
  | preRelease
  | buildMetadata
  deriving DecidableEq, Repr

inductive ParseSemanticVersionError
  | missingCoreComponent
  | tooManyCoreComponents
  | leadingZero (part : VersionSection)
  | invalidNumber (part : VersionSection)
  | numericOverflow (part : VersionSection)
  | emptyIdentifier (part : VersionSection) (identifier : Nat)
  | invalidIdentifier (part : VersionSection) (index : Nat)
  | multipleBuildSeparators
  deriving DecidableEq, Repr

/-- `str::split_once`. -/
def splitOnce (mark : Char) (text : List Char) : Option (List Char × List Char) :=
  if mark ∈ text then
    some (text.takeWhile (· ≠ mark), (text.dropWhile (· ≠ mark)).tail)
  else none

def parseCoreNumber (input : List Char) (part : VersionSection) :
    Except ParseSemanticVersionError Nat := do
  rejectIf (input = [] ∨ ¬ Decimal.IsDigits input) (.invalidNumber part)
  rejectIf (1 < input.length ∧ input.head? = some '0') (.leadingZero part)
  if Decimal.value input < 2 ^ 64 then pure (Decimal.value input)
  else .error (.numericOverflow part)

def isIdentifierChar (c : Char) : Bool := c.isAlphanum || c == '-'

/-- One identifier: the position of its first invalid character is counted from the start of the
section. -/
def validateIdentifier (part : VersionSection) (rejectNumericLeadingZero : Bool)
    (identifier start : Nat) (value : List Char) : Except ParseSemanticVersionError Unit := do
  rejectIf (value = []) (.emptyIdentifier part identifier)
  rejectIf (¬ ∀ c ∈ value, isIdentifierChar c = true)
    (.invalidIdentifier part (start + value.findIdx fun c => !isIdentifierChar c))
  rejectIf (rejectNumericLeadingZero = true ∧ 1 < value.length ∧ Decimal.IsDigits value ∧
    value.head? = some '0') (.leadingZero part)

def validateIdentifiers (part : VersionSection) (rejectNumericLeadingZero : Bool) :
    Nat → Nat → List (List Char) → Except ParseSemanticVersionError Unit
  | _, _, [] => .ok ()
  | identifier, start, value :: rest => do
      validateIdentifier part rejectNumericLeadingZero identifier start value
      validateIdentifiers part rejectNumericLeadingZero (identifier + 1)
        (start + value.length + 1) rest

/-- The identifiers of one section. -/
def validateSection (part : VersionSection) (rejectNumericLeadingZero : Bool)
    (input : List Char) : Except ParseSemanticVersionError Unit :=
  validateIdentifiers part rejectNumericLeadingZero 0 0 (input.splitOn '.')

def splitBuildMetadata (input : List Char) :
    Except ParseSemanticVersionError (List Char × Option String) :=
  match splitOnce '+' input with
  | some (left, right) => do
      rejectIf ('+' ∈ right) .multipleBuildSeparators
      validateSection .buildMetadata false right
      pure (left, some (String.ofList right))
  | none => pure (input, none)

def splitPreRelease (withoutBuild : List Char) :
    Except ParseSemanticVersionError (List Char × Option String) :=
  match splitOnce '-' withoutBuild with
  | some (left, right) => do
      validateSection .preRelease true right
      pure (left, some (String.ofList right))
  | none => pure (withoutBuild, none)

/-- The next number of the core, or the error that it is missing. -/
def nextCoreNumber (part : VersionSection) : List (List Char) →
    Except ParseSemanticVersionError (Nat × List (List Char))
  | [] => .error .missingCoreComponent
  | component :: rest => do
      let number ← parseCoreNumber component part
      pure (number, rest)

/-- `from_str`. -/
def SemanticVersion.parse (input : List Char) :
    Except ParseSemanticVersionError SemanticVersion := do
  let (withoutBuild, buildMetadata) ← splitBuildMetadata input
  let (core, preRelease) ← splitPreRelease withoutBuild
  let (major, components) ← nextCoreNumber .major (core.splitOn '.')
  let (minor, components) ← nextCoreNumber .minor components
  let (patch, components) ← nextCoreNumber .patch components
  rejectIf (components ≠ []) .tooManyCoreComponents
  pure { major, minor, patch, preRelease, buildMetadata }

/-- The versions a program can hold: they were parsed, or built from three numbers. -/
structure SemanticVersion.Valid (version : SemanticVersion) : Prop where
  major : version.major < 2 ^ 64
  minor : version.minor < 2 ^ 64
  patch : version.patch < 2 ^ 64
  preRelease : ∀ text, version.preRelease = some text →
    validateSection .preRelease true text.toList = .ok ()
  buildMetadata : ∀ text, version.buildMetadata = some text →
    validateSection .buildMetadata false text.toList = .ok ()

/-! ## Marks -/

variable {text left right : List Char} {mark : Char}

theorem splitOnce_append (h : mark ∉ left) :
    splitOnce mark (left ++ mark :: right) = some (left, right) := by
  have hleft : ∀ c ∈ left, decide (c ≠ mark) = true := fun c hc =>
    decide_eq_true fun heq => h (heq ▸ hc)
  rw [splitOnce, if_pos (List.mem_append_right _ List.mem_cons_self),
    List.takeWhile_append_of_pos hleft, List.dropWhile_append_of_pos hleft]
  simp

/-- A text that is split is put together again. -/
theorem splitOnce_eq_some (h : splitOnce mark text = some (left, right)) :
    text = left ++ mark :: right := by
  unfold splitOnce at h
  split_ifs at h with hmem
  cases h
  cases hdrop : text.dropWhile (· ≠ mark) with
  | nil =>
      exact absurd rfl (of_decide_eq_true (List.dropWhile_eq_nil_iff.1 hdrop mark hmem))
  | cons c rest =>
      have hc : c = mark := by
        have hfalse := List.head?_dropWhile_not (fun c => decide (c ≠ mark)) text
        rw [hdrop] at hfalse
        simpa using hfalse
      rw [← hc]
      conv_lhs =>
        rw [← List.takeWhile_append_dropWhile (p := fun d => decide (d ≠ mark)) (l := text), hdrop]
      rw [hc]
      rfl

theorem splitOnce_of_not_mem (h : mark ∉ text) : splitOnce mark text = none := if_neg h

theorem mem_intercalate {pieces : List (List Char)} {c : Char}
    (h : c ∈ [mark].intercalate pieces) : c = mark ∨ ∃ piece ∈ pieces, c ∈ piece := by
  induction pieces with
  | nil => cases h
  | cons piece rest ih =>
      by_cases hrest : rest = []
      · rw [hrest, List.intercalate_singleton] at h
        exact .inr ⟨piece, List.mem_cons_self, h⟩
      · rw [List.intercalate_cons_of_ne_nil hrest, List.mem_append, List.mem_append,
          List.mem_singleton] at h
        rcases h with (h | h) | h
        · exact .inr ⟨piece, List.mem_cons_self, h⟩
        · exact .inl h
        · obtain h | ⟨other, hother, hc⟩ := ih h
          · exact .inl h
          · exact .inr ⟨other, .tail _ hother, hc⟩

/-- The validation of a section looks at each identifier by itself. -/
theorem validateSection_eq_ok {part : VersionSection} {reject : Bool} :
    validateSection part reject text = .ok () ↔ ∀ piece ∈ text.splitOn '.', piece ≠ [] ∧
      (∀ c ∈ piece, isIdentifierChar c = true) ∧
      ¬ (reject = true ∧ 1 < piece.length ∧ Decimal.IsDigits piece ∧ piece.head? = some '0') := by
  have hpieces : ∀ (pieces : List (List Char)) identifier start,
      validateIdentifiers part reject identifier start pieces = .ok () ↔
      ∀ piece ∈ pieces, piece ≠ [] ∧ (∀ c ∈ piece, isIdentifierChar c = true) ∧
        ¬ (reject = true ∧ 1 < piece.length ∧ Decimal.IsDigits piece ∧
          piece.head? = some '0') := by
    intro pieces
    induction pieces with
    | nil => exact fun _ _ => ⟨fun _ => nofun, fun _ => rfl⟩
    | cons value rest ih =>
        intro identifier start
        rw [validateIdentifiers, bind_eq_ok, List.forall_mem_cons]
        constructor
        · rintro ⟨⟨⟩, hvalue, hrest⟩
          obtain ⟨⟨⟩, hne, hvalue⟩ := bind_eq_ok.1 hvalue
          obtain ⟨⟨⟩, hchars, hzero⟩ := bind_eq_ok.1 hvalue
          exact ⟨⟨rejectIf_eq_ok.1 hne, not_not.1 (rejectIf_eq_ok.1 hchars), rejectIf_eq_ok.1 hzero⟩,
            (ih _ _).1 hrest⟩
        · rintro ⟨⟨hne, hchars, hzero⟩, hrest⟩
          exact ⟨(), bind_eq_ok.2 ⟨(), rejectIf_eq_ok.2 hne, bind_eq_ok.2 ⟨(),
            rejectIf_eq_ok.2 (not_not.2 hchars), rejectIf_eq_ok.2 hzero⟩⟩, (ih _ _).2 hrest⟩
  exact hpieces _ _ _

/-- An accepted section holds identifier characters and dots. -/
theorem chars_of_validateSection {part : VersionSection} {reject : Bool}
    (h : validateSection part reject text = .ok ()) {c : Char} (hc : c ∈ text) :
    c = '.' ∨ isIdentifierChar c = true := by
  rw [← @List.intercalate_splitOn _ text _ _ '.'] at hc
  obtain rfl | ⟨piece, hpiece, hc⟩ := mem_intercalate hc
  · exact .inl rfl
  · exact .inr ((validateSection_eq_ok.1 h piece hpiece).2.1 c hc)

theorem digits_not_mem {n : Nat} (h : mark.isDigit = false) : mark ∉ Nat.toDigits 10 n := by
  intro hmem
  rw [Nat.isDigit_of_mem_toDigits (by decide) (by decide) hmem] at h
  cases h

/-! ## Numbers -/

/-- The numbers that are read: without leading zero, and of 64 bits. -/
theorem parseCoreNumber_eq_ok {part : VersionSection} {n : Nat} :
    parseCoreNumber text part = .ok n ↔
      Decimal.Canonical text ∧ n < 2 ^ 64 ∧ Decimal.value text = n := by
  rw [parseCoreNumber, bind_eq_ok]
  constructor
  · rintro ⟨⟨⟩, hdigits, h⟩
    obtain ⟨⟨⟩, hzero, h⟩ := bind_eq_ok.1 h
    obtain ⟨hne, hdigits⟩ := not_or.1 (rejectIf_eq_ok.1 hdigits)
    have hzero := rejectIf_eq_ok.1 hzero
    have hpos := List.length_pos_iff.2 hne
    split at h
    · cases h
      refine ⟨⟨hne, not_not.1 hdigits, ?_⟩, by assumption, rfl⟩
      by_cases hlong : 1 < text.length
      · exact .inr fun hhead => hzero ⟨hlong, hhead⟩
      · exact .inl (by omega)
    · cases h
  · rintro ⟨⟨hne, hdigits, hleading⟩, hfits, rfl⟩
    refine ⟨(), rejectIf_eq_ok.2 (not_or.2 ⟨hne, not_not.2 hdigits⟩),
      bind_eq_ok.2 ⟨(), rejectIf_eq_ok.2 ?_, if_pos hfits⟩⟩
    rintro ⟨hlong, hhead⟩
    rcases hleading with hone | hne
    · omega
    · exact hne hhead

/-- A printed number is read back. -/
theorem parseCoreNumber_toDigits {n : Nat} (h : n < 2 ^ 64) (part : VersionSection) :
    parseCoreNumber (Nat.toDigits 10 n) part = .ok n := by
  refine parseCoreNumber_eq_ok.2 ⟨Decimal.canonical_toDigits n, h, ?_⟩
  exact Nat.ofDigitChars_ten_toDigits

/-! ## Versions -/

namespace SemanticVersion

variable {version : SemanticVersion}

/-- The three numbers of a version. -/
def coreText (version : SemanticVersion) : List Char :=
  Nat.toDigits 10 version.major ++ '.' :: (Nat.toDigits 10 version.minor ++
    '.' :: Nat.toDigits 10 version.patch)

def preReleaseText (version : SemanticVersion) : List Char :=
  (version.preRelease.map fun text => '-' :: text.toList).getD []

def buildText (version : SemanticVersion) : List Char :=
  (version.buildMetadata.map fun text => '+' :: text.toList).getD []

theorem toList_display (version : SemanticVersion) :
    version.display.toList = version.coreText ++ version.preReleaseText ++ version.buildText := by
  rw [display, String.toList_append, String.toList_append]
  refine congrArg₂ _ (congrArg₂ _ ?_ ?_) ?_
  · rw [coreText]
    simp [toString]
  · rw [preReleaseText]
    cases version.preRelease <;> simp
  · rw [buildText]
    cases version.buildMetadata <;> simp

/-- The core holds digits and dots only. -/
theorem not_mem_coreText (hdigit : mark.isDigit = false) (hdot : mark ≠ '.') :
    mark ∉ version.coreText := by
  simp only [coreText, List.mem_append, List.mem_cons, not_or]
  exact ⟨digits_not_mem hdigit, hdot, digits_not_mem hdigit, hdot, digits_not_mem hdigit⟩

theorem splitOn_coreText (version : SemanticVersion) : version.coreText.splitOn '.' =
    [Nat.toDigits 10 version.major, Nat.toDigits 10 version.minor,
      Nat.toDigits 10 version.patch] := by
  have hdot : ∀ n, '.' ∉ Nat.toDigits 10 n := fun n => digits_not_mem rfl
  rw [coreText, List.splitOn_append_cons_self_of_not_mem (hdot _),
    List.splitOn_append_cons_self_of_not_mem (hdot _), List.splitOn_eq_singleton (hdot _)]

/-- No section holds a plus sign. -/
theorem plus_not_mem {part : VersionSection} {reject : Bool}
    (h : validateSection part reject text = .ok ()) : '+' ∉ text := by
  intro hmem
  obtain hdot | hchar := chars_of_validateSection h hmem
  · exact absurd hdot (by decide)
  · exact absurd hchar (by decide)

theorem splitBuildMetadata_display (h : version.Valid) :
    splitBuildMetadata version.display.toList =
      .ok (version.coreText ++ version.preReleaseText, version.buildMetadata) := by
  have hfront : '+' ∉ version.coreText ++ version.preReleaseText := by
    rw [List.mem_append, not_or]
    refine ⟨not_mem_coreText rfl (by decide), ?_⟩
    rw [preReleaseText]
    cases hpre : version.preRelease with
    | none => exact List.not_mem_nil
    | some text =>
        exact List.not_mem_cons_of_ne_of_not_mem (by decide) (plus_not_mem (h.preRelease text hpre))
  rw [toList_display, buildText, splitBuildMetadata]
  cases hbuild : version.buildMetadata with
  | none =>
      rw [Option.map_none, Option.getD_none, List.append_nil, splitOnce_of_not_mem hfront]
      rfl
  | some text =>
      have hvalid := h.buildMetadata text hbuild
      rw [Option.map_some, Option.getD_some, splitOnce_append hfront]
      simp only [rejectIf, if_neg (plus_not_mem hvalid), hvalid, String.ofList_toList]
      rfl

theorem splitPreRelease_text (h : version.Valid) :
    splitPreRelease (version.coreText ++ version.preReleaseText) =
      .ok (version.coreText, version.preRelease) := by
  have hcore : '-' ∉ version.coreText := not_mem_coreText rfl (by decide)
  rw [preReleaseText, splitPreRelease]
  cases hpre : version.preRelease with
  | none =>
      rw [Option.map_none, Option.getD_none, List.append_nil, splitOnce_of_not_mem hcore]
      rfl
  | some text =>
      rw [Option.map_some, Option.getD_some, splitOnce_append hcore]
      simp only [h.preRelease text hpre, String.ofList_toList]
      rfl

/-- A version is read back from its text. -/
theorem parse_display (h : version.Valid) : parse version.display.toList = .ok version := by
  simp only [parse, splitBuildMetadata_display h, splitPreRelease_text h, bind, Except.bind,
    splitOn_coreText, nextCoreNumber, parseCoreNumber_toDigits h.major,
    parseCoreNumber_toDigits h.minor, parseCoreNumber_toDigits h.patch, pure, Except.pure]
  rfl

theorem nextCoreNumber_eq_ok {part : VersionSection} {components rest : List (List Char)}
    {number : Nat} (h : nextCoreNumber part components = .ok (number, rest)) :
    number < 2 ^ 64 ∧ components = Nat.toDigits 10 number :: rest := by
  cases components with
  | nil => cases h
  | cons component rest =>
      obtain ⟨found, hfound, heq⟩ := bind_eq_ok.1 h
      cases heq
      obtain ⟨hcanonical, hfits, rfl⟩ := parseCoreNumber_eq_ok.1 hfound
      exact ⟨hfits, by rw [hcanonical.toDigits_value]⟩

/-- Whatever was parsed is a version a program can hold. -/
theorem valid_of_parse (h : parse text = .ok version) : version.Valid := by
  simp only [parse, bind_eq_ok, pure_eq_ok] at h
  obtain ⟨⟨front, build⟩, hbuild, ⟨core, pre⟩, hpre, ⟨major, _⟩, hmajor, ⟨minor, _⟩, hminor,
    ⟨patch, _⟩, hpatch, ⟨⟩, -, heq⟩ := h
  subst heq
  refine ⟨(nextCoreNumber_eq_ok hmajor).1, (nextCoreNumber_eq_ok hminor).1,
    (nextCoreNumber_eq_ok hpatch).1, ?_, ?_⟩
  · rintro _ rfl
    unfold splitPreRelease at hpre
    split at hpre
    · simp only [bind_eq_ok, pure_eq_ok] at hpre
      obtain ⟨⟨⟩, hvalid, heq⟩ := hpre
      cases heq
      rwa [String.toList_ofList]
    · cases hpre
  · rintro _ rfl
    unfold splitBuildMetadata at hbuild
    split at hbuild
    · simp only [bind_eq_ok, pure_eq_ok] at hbuild
      obtain ⟨⟨⟩, -, ⟨⟩, hvalid, heq⟩ := hbuild
      cases heq
      rwa [String.toList_ofList]
    · cases hbuild

/-- The section that is cut off, with its mark. -/
theorem splitBuildMetadata_text {front : List Char} {build : Option String}
    (h : splitBuildMetadata text = .ok (front, build)) :
    text = front ++ (build.map fun text => '+' :: text.toList).getD [] := by
  unfold splitBuildMetadata at h
  split at h
  · rename_i hsplit
    obtain ⟨-, -, h⟩ := bind_eq_ok.1 h
    obtain ⟨-, -, h⟩ := bind_eq_ok.1 h
    cases h
    simpa using splitOnce_eq_some hsplit
  · cases h
    simp

theorem splitPreRelease_text_eq {core : List Char} {pre : Option String}
    (h : splitPreRelease text = .ok (core, pre)) :
    text = core ++ (pre.map fun text => '-' :: text.toList).getD [] := by
  unfold splitPreRelease at h
  split at h
  · rename_i hsplit
    obtain ⟨-, -, h⟩ := bind_eq_ok.1 h
    cases h
    simpa using splitOnce_eq_some hsplit
  · cases h
    simp

/-- A version that was read is displayed as the text it was read from. -/
theorem display_of_parse (h : parse text = .ok version) : version.display.toList = text := by
  simp only [parse, bind_eq_ok, pure_eq_ok] at h
  obtain ⟨⟨front, build⟩, hbuild, ⟨core, pre⟩, hpre, ⟨major, _⟩, hmajor, ⟨minor, _⟩, hminor,
    ⟨patch, _⟩, hpatch, ⟨⟩, hrest, heq⟩ := h
  have hcomponents := (nextCoreNumber_eq_ok hmajor).2
  dsimp only at hcomponents hminor hpatch hrest
  rw [(nextCoreNumber_eq_ok hminor).2, (nextCoreNumber_eq_ok hpatch).2,
    not_not.1 (rejectIf_eq_ok.1 hrest)] at hcomponents
  have hcore := congrArg ['.'].intercalate hcomponents
  rw [List.intercalate_splitOn] at hcore
  subst heq
  rw [toList_display, splitBuildMetadata_text hbuild]
  dsimp only at hpre ⊢
  rw [splitPreRelease_text_eq hpre, hcore]
  simp [coreText, preReleaseText, buildText, List.intercalate_cons_of_ne_nil]

end SemanticVersion

end Graph
end Superi

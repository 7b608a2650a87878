import Superi.Core.Timecode
import Superi.Lib.Skipping

/-!
# TimecodeLaws — labels and frames

Parsing inverts the display of every frame in every format, so no two frames share a label and
drop-frame counting never displays a label it would refuse.  The other way round, parsing accepts
the displayed label of a frame and, because the width of the hour field is only bounded from below,
the same label with more zeros in front of the hours.
-/

namespace Superi
namespace Core

open Result Decimal Delimited Skipping

/-! ## Formats -/

theorem digitCount_go (n : Nat) :
    digitCount.go n = if n = 0 then 0 else (Nat.toDigits 10 n).length := by
  induction n using Nat.strongRecOn with
  | _ n ih =>
      rw [digitCount.go]
      split
      · rfl
      · rename_i hpos
        rw [ih (n / 10) (by omega)]
        rcases Nat.lt_or_ge n 10 with hlt | hge
        · rw [if_pos (by omega), Nat.toDigits_of_lt_base hlt]
          rfl
        · rw [if_neg (by omega), Nat.toDigits_of_base_le (by decide) hge, List.length_append]
          rfl

theorem digitCount_eq (n : Nat) : digitCount n = (Nat.toDigits 10 n).length := by
  rw [digitCount]
  split
  · rename_i hzero
    rw [hzero, Nat.toDigits_zero]
    rfl
  · rename_i hpos
    rw [digitCount_go, if_neg hpos]

namespace TimecodeFormat

variable (format : TimecodeFormat)

theorem nominalFps_pos : 0 < format.nominalFps := lt_of_lt_of_le one_pos (le_max_right _ _)

theorem nominalFps_fits : format.nominalFps < 4294967296 := by
  have hn := format.rate.timebase.numerator_fits
  have hd := format.rate.timebase.denominator_pos
  have hfits : format.rate.nominalFps < 4294967296 := by
    rw [FrameRate.nominalFps, FrameRate.numerator, FrameRate.denominator, Nat.div_lt_iff_lt_mul hd]
    have hmul : 4294967296 ≤ 4294967296 * format.rate.timebase.denominator :=
      Nat.le_mul_of_pos_right _ hd
    rcases Nat.lt_or_ge 1 format.rate.timebase.denominator with htwo | hone
    · have hhalf := Nat.div_mul_le_self format.rate.timebase.denominator 2
      omega
    · have hzero : format.rate.timebase.denominator / 2 = 0 := Nat.div_eq_of_lt (by omega)
      omega
  exact max_lt hfits (by decide)

/-- Only a fraction of the labels of one second is ever dropped. -/
theorem drop_lt : 15 * format.dropFramesPerMinute ≤ format.nominalFps := by
  obtain ⟨rate, mode, drop, counting⟩ := format
  cases mode with
  | nonDropFrame =>
      cases counting
      exact Nat.zero_le _
  | dropFrame =>
      obtain ⟨-, rfl⟩ := counting
      change 15 * (rate.nominalFps / 15) ≤ max rate.nominalFps 1
      have hnominal : rate.nominalFps ≤ max rate.nominalFps 1 := le_max_left _ _
      omega

/-- The labels of a minute that are not dropped, in a minute that drops some. -/
def period : Nat := format.nominalFps * 60 - format.dropFramesPerMinute

theorem period_add_drop : format.period + format.dropFramesPerMinute = format.nominalFps * 60 := by
  have hdrop := format.drop_lt
  rw [period]
  omega

theorem drop_le_period : format.dropFramesPerMinute ≤ format.period := by
  have hdrop := format.drop_lt
  rw [period]
  omega

theorem period_pos : 0 < format.period := by
  have hdrop := format.drop_lt
  have hpos := format.nominalFps_pos
  rw [period]
  omega

/-- The frame field holds every frame number of a second. -/
theorem frame_lt {frame : Nat} (h : frame < format.nominalFps) : frame < 10 ^ format.frameWidth := by
  have hwidth : (Nat.toDigits 10 (format.nominalFps - 1)).length ≤ format.frameWidth := by
    rw [frameWidth, ← digitCount_eq]
    exact le_max_left _ _
  have hpos : 0 < format.frameWidth := lt_of_lt_of_le two_pos (le_max_right _ _)
  have hlast := (Nat.length_toDigits_le_iff (by decide) hpos).1 hwidth
  omega

end TimecodeFormat

/-- The display of the source is the closed form of counting that skips labels, in both modes. -/
theorem Timecode.displayCount_eq (timecode : Timecode) : timecode.displayCount =
    labelOf timecode.format.period timecode.format.dropFramesPerMinute timecode.frames.natAbs := by
  have hdrop := timecode.format.drop_lt
  have hcycle : timecode.format.nominalFps * 600 - timecode.format.dropFramesPerMinute * 9 =
      cycle timecode.format.period timecode.format.dropFramesPerMinute := by
    rw [cycle, TimecodeFormat.period]
    omega
  rw [displayCount]
  split
  · rename_i hmode
    have hzero : timecode.format.dropFramesPerMinute = 0 := by
      have hcounting := timecode.format.counting
      rw [hmode] at hcounting
      exact hcounting
    simp [labelOf, hzero]
  · simp only [hcycle, labelOf]
    rw [TimecodeFormat.period]
    split
    · rfl
    · rfl

/-! ## Components -/

/-- Division of a number that is written with quotient and remainder. -/
theorem div_mod_of_lt {a b r : Nat} (h : r < b) : (a * b + r) / b = a ∧ (a * b + r) % b = r := by
  have hb : 0 < b := Nat.lt_of_le_of_lt (Nat.zero_le _) h
  rw [Nat.add_comm, Nat.add_mul_div_right _ _ hb, Nat.add_mul_mod_self_right, Nat.div_eq_of_lt h,
    Nat.mod_eq_of_lt h, Nat.zero_add]
  exact ⟨rfl, rfl⟩

/-- The components of a label. -/
structure Components (nominal : Nat) where
  hours : Nat
  minutes : Nat
  seconds : Nat
  frames : Nat
  minutes_lt : minutes < 60
  seconds_lt : seconds < 60
  frames_lt : frames < nominal

namespace Components

variable {nominal : Nat} (components : Components nominal)

/-- The labels before it, dropped or not. -/
def count : Nat :=
  ((components.hours * 60 + components.minutes) * 60 + components.seconds) * nominal +
    components.frames

theorem second_lt : components.seconds * nominal + components.frames < nominal * 60 := by
  have hframes := components.frames_lt
  have hseconds := components.seconds_lt
  have hle : components.seconds * nominal ≤ 59 * nominal := Nat.mul_le_mul_right _ (by omega)
  omega

theorem minute_lt : components.minutes * (nominal * 60) +
    (components.seconds * nominal + components.frames) < nominal * 3600 := by
  have hsecond := components.second_lt
  have hminutes := components.minutes_lt
  have hle : components.minutes * (nominal * 60) ≤ 59 * (nominal * 60) :=
    Nat.mul_le_mul_right _ (by omega)
  omega

theorem count_eq_hours : components.count = components.hours * (nominal * 3600) +
    (components.minutes * (nominal * 60) + (components.seconds * nominal + components.frames)) := by
  rw [count]
  ring

theorem count_eq_minutes : components.count =
    (components.hours * 60 + components.minutes) * (nominal * 60) +
      (components.seconds * nominal + components.frames) := by
  rw [count]
  ring

/-- The divisions of the display find the components. -/
theorem count_div :
    components.count / (nominal * 3600) = components.hours ∧
      components.count % (nominal * 3600) / (nominal * 60) = components.minutes ∧
      components.count % (nominal * 3600) % (nominal * 60) / nominal = components.seconds ∧
      components.count % (nominal * 3600) % (nominal * 60) % nominal = components.frames := by
  obtain ⟨h₁, h₂⟩ := div_mod_of_lt (a := components.hours) components.minute_lt
  obtain ⟨h₃, h₄⟩ := div_mod_of_lt (a := components.minutes) components.second_lt
  obtain ⟨h₅, h₆⟩ := div_mod_of_lt (a := components.seconds) components.frames_lt
  rw [count_eq_hours, h₁, h₂, h₃, h₄, h₅, h₆]
  exact ⟨rfl, rfl, rfl, rfl⟩

/-- Every count has components. -/
theorem exists_count (hpos : 0 < nominal) (n : Nat) :
    ∃ components : Components nominal, components.count = n := by
  refine ⟨⟨n / nominal / 60 / 60, n / nominal / 60 % 60, n / nominal % 60, n % nominal,
    Nat.mod_lt _ (by decide), Nat.mod_lt _ (by decide), Nat.mod_lt _ hpos⟩, ?_⟩
  rw [count]
  simp only [Nat.div_add_mod']

/-- Which labels drop-frame counting skips. -/
theorem skipped_iff {format : TimecodeFormat} (components : Components format.nominalFps) :
    Skipped format.period format.dropFramesPerMinute components.count ↔
      components.minutes % 10 ≠ 0 ∧ components.seconds = 0 ∧
        components.frames < format.dropFramesPerMinute := by
  obtain ⟨hdiv, hmod⟩ :=
    div_mod_of_lt (a := components.hours * 60 + components.minutes) components.second_lt
  have hdrop := format.drop_lt
  have hpos := format.nominalFps_pos
  have hten : (components.hours * 60 + components.minutes) % 10 = components.minutes % 10 := by
    omega
  have hsmall : components.seconds * format.nominalFps + components.frames <
      format.dropFramesPerMinute ↔
        components.seconds = 0 ∧ components.frames < format.dropFramesPerMinute := by
    rcases Nat.eq_zero_or_pos components.seconds with hzero | hone
    · rw [hzero, Nat.zero_mul, Nat.zero_add]
      exact (and_iff_right rfl).symm
    · have hle : 1 * format.nominalFps ≤ components.seconds * format.nominalFps :=
        Nat.mul_le_mul_right _ hone
      constructor <;> intro h <;> omega
  rw [Skipped, format.period_add_drop, count_eq_minutes, hdiv, hmod, hten, hsmall]

end Components

/-! ## The arithmetic of parsing -/

/-- The item of a label, as integers. -/
theorem itemOf_count {format : TimecodeFormat} (components : Components format.nominalFps) :
    (itemOf format.period format.dropFramesPerMinute components.count : Int) =
      components.count - (((components.hours * 60 + components.minutes : Nat) : Int) -
        ((components.hours * 60 + components.minutes : Nat) : Int).tdiv 10) *
          format.dropFramesPerMinute := by
  obtain ⟨hdiv, -⟩ :=
    div_mod_of_lt (a := components.hours * 60 + components.minutes) components.second_lt
  have hdrop := format.drop_lt
  rw [itemOf, format.period_add_drop, components.count_eq_minutes, hdiv]
  generalize components.hours * 60 + components.minutes = minutes
  have hskipped : (minutes - minutes / 10) * format.dropFramesPerMinute ≤
      minutes * (format.nominalFps * 60) :=
    Nat.mul_le_mul (Nat.sub_le _ _) (by omega)
  have htdiv : (minutes : Int).tdiv 10 = ((minutes / 10 : Nat) : Int) := rfl
  have hle : minutes / 10 ≤ minutes := Nat.div_le_self _ _
  rw [htdiv, ← Nat.cast_sub hle, ← Nat.cast_mul, ← Nat.cast_sub (by omega)]

theorem checkedI128_natCast {value : Int} {n : Nat} (hvalue : value = n)
    (h : n < 170141183460469231731687303715884105728) : checkedI128 value = some (n : Int) := by
  subst hvalue
  refine checkedI128_eq (inI128_iff.2 ?_)
  omega

/-- The checks of the arithmetic never fail: its values stay far inside 128 bits. -/
theorem labelMagnitude_eq {format : TimecodeFormat} (components : Components format.nominalFps)
    (hhours : components.hours < 18446744073709551616) :
    labelMagnitude components.hours components.minutes components.seconds components.frames format =
      .ok (itemOf format.period format.dropFramesPerMinute components.count : Int) := by
  have hminutes := components.minutes_lt
  have hseconds := components.seconds_lt
  have hframes := components.frames_lt
  have hnominal := format.nominalFps_fits
  have hdrop := format.drop_lt
  have hitem := itemOf_count components
  obtain ⟨minutes, hm⟩ : ∃ minutes, minutes = components.hours * 60 + components.minutes := ⟨_, rfl⟩
  obtain ⟨seconds, hs⟩ : ∃ seconds, seconds = minutes * 60 + components.seconds := ⟨_, rfl⟩
  have hcount : components.count = seconds * format.nominalFps + components.frames := by
    rw [Components.count, hs, hm]
  have hproduct : seconds * format.nominalFps ≤ 66408278665354385817600 * 4294967296 :=
    Nat.mul_le_mul (by omega) hnominal.le
  have hdropped : (minutes - minutes / 10) * format.dropFramesPerMinute ≤
      1106804644422573096960 * 4294967296 := Nat.mul_le_mul (by omega) (by omega)
  have htdiv : (minutes : Int).tdiv 10 = ((minutes / 10 : Nat) : Int) := rfl
  have hle : minutes / 10 ≤ minutes := Nat.div_le_self _ _
  rw [← hm, htdiv, ← Nat.cast_sub hle, hcount] at hitem
  have h₁ : (components.hours * 60 : Int) = ((components.hours * 60 : Nat) : Int) := by push_cast; rfl
  have h₂ : ((components.hours * 60 : Nat) : Int) + components.minutes = (minutes : Int) := by
    rw [hm]; push_cast; rfl
  have h₃ : (minutes : Int) * 60 = ((minutes * 60 : Nat) : Int) := by push_cast; rfl
  have h₄ : ((minutes * 60 : Nat) : Int) + components.seconds = (seconds : Int) := by
    rw [hs]; push_cast; rfl
  have h₅ : (seconds : Int) * format.nominalFps = ((seconds * format.nominalFps : Nat) : Int) :=
    (Nat.cast_mul _ _).symm
  have h₆ : ((seconds * format.nominalFps : Nat) : Int) + components.frames =
      ((seconds * format.nominalFps + components.frames : Nat) : Int) := (Nat.cast_add _ _).symm
  have h₇ : ((minutes : Int) - (minutes : Int).tdiv 10) * format.dropFramesPerMinute =
      (((minutes - minutes / 10) * format.dropFramesPerMinute : Nat) : Int) := by
    rw [htdiv, ← Nat.cast_sub hle, ← Nat.cast_mul]
  simp only [labelMagnitude, bind_eq_ok, okOr_eq_ok]
  refine ⟨_, checkedI128_natCast h₁ (by omega), _, checkedI128_natCast h₂ (by omega), _,
    checkedI128_natCast h₃ (by omega), _, checkedI128_natCast h₄ (by omega), _,
    checkedI128_natCast h₅ (by omega), _, checkedI128_natCast h₆ (by omega), _,
    checkedI128_natCast h₇ (by omega), ?_⟩
  rw [hcount, hitem, Nat.cast_mul]
  refine checkedI128_eq (inI128_iff.2 ?_)
  rw [← Nat.cast_mul]
  omega

/-- So does the item itself. -/
theorem itemOf_lt {format : TimecodeFormat} (components : Components format.nominalFps)
    (hhours : components.hours < 18446744073709551616) :
    itemOf format.period format.dropFramesPerMinute components.count <
      170141183460469231731687303715884105728 := by
  have hminutes := components.minutes_lt
  have hseconds := components.seconds_lt
  have hframes := components.frames_lt
  have hnominal := format.nominalFps_fits
  have hproduct : ((components.hours * 60 + components.minutes) * 60 + components.seconds) *
      format.nominalFps ≤ 66408278665354385817600 * 4294967296 :=
    Nat.mul_le_mul (by omega) hnominal.le
  refine lt_of_le_of_lt (Nat.sub_le _ _) ?_
  rw [Components.count]
  omega

/-! ## Fields -/

theorem utf8Size_of_isDigit {c : Char} (h : c.isDigit = true) : c.utf8Size = 1 := by
  obtain ⟨-, hhigh⟩ := Char.isDigit_iff_toNat.1 h
  have hhigh' : c.val.toNat ≤ 57 := hhigh
  rw [Char.utf8Size_eq_one_iff, UInt32.le_iff_toNat_le]
  exact le_trans hhigh' (by decide)

theorem byteLength_of_isDigits {text : List Char} (h : IsDigits text) :
    byteLength text = text.length := by
  induction text with
  | nil => rfl
  | cons c text ih =>
      obtain ⟨hc, htext⟩ := List.forall_mem_cons.1 h
      rw [byteLength, List.map_cons, List.sum_cons, utf8Size_of_isDigit hc]
      rw [byteLength] at ih
      rw [ih htext, List.length_cons, Nat.add_comm]

theorem parseDigits_eq_ok {text : List Char} {n : Nat} : parseDigits text = .ok n ↔
    (text ≠ [] ∧ IsDigits text) ∧ value text < 18446744073709551616 ∧ value text = n := by
  unfold parseDigits
  by_cases hdigits : text = [] ∨ ¬ IsDigits text
  · rw [if_pos hdigits]
    constructor
    · intro h
      cases h
    · rintro ⟨⟨hne, h⟩, -⟩
      rcases hdigits with hnil | hnot
      · exact absurd hnil hne
      · exact absurd h hnot
  · rw [if_neg hdigits]
    rw [not_or, not_not] at hdigits
    by_cases hfits : value text < 18446744073709551616
    · simp [hfits, hdigits]
    · simp [hfits]

/-- Digits are no delimiters. -/
theorem plain_of_isDigits {text : List Char} (h : IsDigits text) : Plain isDelimiter text := by
  intro c hc
  have hdigit := h c hc
  rw [isDelimiter, Bool.or_eq_false_iff, beq_eq_false_iff_ne, beq_eq_false_iff_ne]
  constructor
  · rintro rfl
    cases hdigit
  · rintro rfl
    cases hdigit

theorem TimecodeMode.isDelimiter_separator (mode : TimecodeMode) :
    isDelimiter mode.separator = true := by
  cases mode with
  | nonDropFrame => rfl
  | dropFrame => rfl

namespace LabelFields

variable {fields : LabelFields} {format : TimecodeFormat}

/-- The label the fields are cut from. -/
def text (fields : LabelFields) (separator : Char) : List Char :=
  fields.hours ++ ':' :: (fields.minutes ++ ':' :: (fields.seconds ++ separator :: fields.frames))

/-- The lengths that are checked before the digits. -/
def Measured (fields : LabelFields) (format : TimecodeFormat) : Prop :=
  2 ≤ byteLength fields.hours ∧ byteLength fields.minutes = 2 ∧ byteLength fields.seconds = 2 ∧
    byteLength fields.frames = format.frameWidth

variable (fields) in
/-- Where the delimiters of a label stand. -/
def positions : Nat × Nat × Nat :=
  (fields.hours.length, fields.hours.length + 1 + fields.minutes.length,
    fields.hours.length + 1 + fields.minutes.length + 1 + fields.seconds.length)

/-- The cuts of the source at the positions of the delimiters find the fields. -/
theorem cut_text (fields : LabelFields) (separator : Char) :
    (fields.text separator).take fields.positions.1 = fields.hours ∧
      ((fields.text separator).take fields.positions.2.1).drop (fields.positions.1 + 1) =
        fields.minutes ∧
      ((fields.text separator).take fields.positions.2.2).drop (fields.positions.2.1 + 1) =
        fields.seconds ∧
      (fields.text separator).drop (fields.positions.2.2 + 1) = fields.frames := by
  have hseconds : fields.text separator = (fields.hours ++ ':' :: fields.minutes) ++
      ':' :: (fields.seconds ++ separator :: fields.frames) := by simp [text]
  have hframes : fields.text separator =
      (fields.hours ++ ':' :: (fields.minutes ++ ':' :: (fields.seconds ++ [separator]))) ++
        fields.frames := by simp [text]
  have hsecond : fields.positions.2.1 = (fields.hours ++ ':' :: fields.minutes).length := by
    simp only [positions, List.length_append, List.length_cons]
    omega
  refine ⟨List.take_left, drop_take_between, ?_, ?_⟩
  · have hthird : fields.positions.2.2 =
        (fields.hours ++ ':' :: fields.minutes).length + 1 + fields.seconds.length := by
      rw [← hsecond]
      rfl
    rw [hthird, hsecond, hseconds]
    exact drop_take_between
  · have hlast : fields.positions.2.2 + 1 = (fields.hours ++ ':' :: (fields.minutes ++
        ':' :: (fields.seconds ++ [separator]))).length := by
      simp only [positions, List.length_append, List.length_cons, List.length_nil]
      omega
    rw [hlast, hframes]
    exact List.drop_left

theorem marks_text {separator : Char} (hseparator : isDelimiter separator = true)
    (hhours : Plain isDelimiter fields.hours) (hminutes : Plain isDelimiter fields.minutes)
    (hseconds : Plain isDelimiter fields.seconds) (hframes : Plain isDelimiter fields.frames) :
    marks isDelimiter 0 (fields.text separator) = [(':', fields.positions.1),
      (':', fields.positions.2.1), (separator, fields.positions.2.2)] := by
  have hcolon : isDelimiter ':' = true := rfl
  rw [text, marks_plain_append hhours, marks_cons, hcolon, if_pos rfl, marks_plain_append hminutes,
    marks_cons, hcolon, if_pos rfl, marks_plain_append hseconds, marks_cons, hseparator, if_pos rfl,
    marks_eq_nil.2 hframes]
  simp only [positions, Nat.zero_add]

end LabelFields

/-- Fields are cut from their label, at its only delimiters. -/
theorem splitFields_of_ok {unsigned : List Char} {format : TimecodeFormat} {fields : LabelFields}
    (h : splitFields unsigned format = .ok fields) :
    unsigned = fields.text format.mode.separator ∧ fields.Measured format := by
  unfold splitFields at h
  split at h
  · rename_i firstDelimiter first secondDelimiter second foundSeparator third hmarks
    simp only [bind_eq_ok, rejectIf_eq_ok, pure_eq_ok, not_or, not_not, not_lt] at h
    obtain ⟨_, ⟨rfl, rfl⟩, _, rfl, _, hmeasured, rfl⟩ := h
    obtain ⟨hours, afterHours, rfl, -, -, rfl, hmarks⟩ := marks_eq_cons.1 hmarks
    obtain ⟨minutes, afterMinutes, rfl, -, -, rfl, hmarks⟩ := marks_eq_cons.1 hmarks
    obtain ⟨seconds, frames, rfl, -, -, rfl, -⟩ := marks_eq_cons.1 hmarks
    obtain ⟨h₁, h₂, h₃, h₄⟩ :=
      LabelFields.cut_text ⟨hours, minutes, seconds, frames⟩ format.mode.separator
    simp only [LabelFields.positions, LabelFields.text] at h₁ h₂ h₃ h₄
    simp only [Nat.zero_add, h₁, h₂, h₃, h₄] at hmeasured ⊢
    exact ⟨rfl, hmeasured⟩
  · cases h

theorem splitFields_text {format : TimecodeFormat} {fields : LabelFields}
    (hhours : Plain isDelimiter fields.hours) (hminutes : Plain isDelimiter fields.minutes)
    (hseconds : Plain isDelimiter fields.seconds) (hframes : Plain isDelimiter fields.frames)
    (hmeasured : fields.Measured format) :
    splitFields (fields.text format.mode.separator) format = .ok fields := by
  have hmarks := LabelFields.marks_text format.mode.isDelimiter_separator hhours hminutes hseconds
    hframes
  obtain ⟨h₁, h₂, h₃, h₄⟩ := fields.cut_text format.mode.separator
  unfold splitFields
  rw [hmarks]
  simp only [h₁, h₂, h₃, h₄, bind_eq_ok, rejectIf_eq_ok, pure_eq_ok, not_or, not_not, not_lt]
  exact ⟨(), ⟨trivial, trivial⟩, (), trivial, (), hmeasured, trivial⟩

/-! ## Signs -/

def signText (negative : Bool) : List Char := if negative then ['-'] else []

def signed (negative : Bool) (magnitude : Int) : Int := if negative then -magnitude else magnitude

theorem stripSign_eq (label : List Char) :
    label = signText (stripSign label).1 ++ (stripSign label).2 := by
  unfold stripSign
  split
  · rfl
  · rfl

theorem stripSign_signText {negative : Bool} {unsigned : List Char}
    (h : unsigned.head? ≠ some '-') : stripSign (signText negative ++ unsigned) =
      (negative, unsigned) := by
  cases negative with
  | true => rfl
  | false =>
      unfold stripSign
      split
      · rename_i rest heq
        have hhead : unsigned = '-' :: rest := heq
        rw [hhead] at h
        exact absurd rfl h
      · rfl

/-! ## Labels that parse -/

namespace LabelFields

/-- What parsing checks of the fields of a label. -/
structure Valid (fields : LabelFields) (format : TimecodeFormat) : Prop where
  hours : IsDigits fields.hours
  minutes : IsDigits fields.minutes
  seconds : IsDigits fields.seconds
  frames : IsDigits fields.frames
  measured : fields.Measured format
  hours_lt : value fields.hours < 18446744073709551616
  minutes_lt : value fields.minutes < 60
  seconds_lt : value fields.seconds < 60
  frames_lt : value fields.frames < format.nominalFps
  kept : ¬ (value fields.minutes % 10 ≠ 0 ∧ value fields.seconds = 0 ∧
    value fields.frames < format.dropFramesPerMinute)

namespace Valid

variable {fields : LabelFields} {format : TimecodeFormat}

def components (valid : fields.Valid format) : Components format.nominalFps :=
  ⟨value fields.hours, value fields.minutes, value fields.seconds, value fields.frames,
    valid.minutes_lt, valid.seconds_lt, valid.frames_lt⟩

theorem not_skipped (valid : fields.Valid format) :
    ¬ Skipped format.period format.dropFramesPerMinute valid.components.count := by
  rw [Components.skipped_iff]
  exact valid.kept

theorem hours_ne_nil (valid : fields.Valid format) : fields.hours ≠ [] := by
  rintro hnil
  have hlong := valid.measured.1
  rw [hnil] at hlong
  exact absurd hlong (by decide)

/-- The label starts with a digit. -/
theorem head?_text (valid : fields.Valid format) (separator : Char) :
    (fields.text separator).head? ≠ some '-' := by
  intro hhead
  have hhours := valid.hours
  have hne := valid.hours_ne_nil
  cases hfield : fields.hours with
  | nil => exact hne hfield
  | cons c rest =>
      rw [text, hfield, List.cons_append, List.head?_cons, Option.some.injEq] at hhead
      rw [hfield] at hhours
      have hdigit := hhours c List.mem_cons_self
      rw [hhead] at hdigit
      cases hdigit

end Valid

end LabelFields

/-- The check for dropped labels says the same in both modes. -/
theorem dropped_iff {format : TimecodeFormat} {minutes seconds frames : Nat} :
    (format.mode = .dropFrame ∧ minutes % 10 ≠ 0 ∧ seconds = 0 ∧
      frames < format.dropFramesPerMinute) ↔
    minutes % 10 ≠ 0 ∧ seconds = 0 ∧ frames < format.dropFramesPerMinute := by
  refine ⟨And.right, fun h => ⟨?_, h⟩⟩
  cases hmode : format.mode with
  | dropFrame => rfl
  | nonDropFrame =>
      have hzero : format.dropFramesPerMinute = 0 := by
        have hcounting := format.counting
        rw [hmode] at hcounting
        exact hcounting
      rw [hzero] at h
      exact absurd h.2.2 (Nat.not_lt_zero _)

theorem applySign_eq_ok {negative : Bool} {magnitude : Nat} {value : Int}
    (hmagnitude : magnitude < 170141183460469231731687303715884105728) :
    applySign negative magnitude = .ok value ↔ value = signed negative magnitude := by
  unfold applySign
  cases negative with
  | true =>
      have hfits : checkedI128 (-(magnitude : Int)) = some (-(magnitude : Int)) := by
        refine checkedI128_eq (inI128_iff.2 ?_)
        omega
      rw [if_pos rfl, okOr_eq_ok, hfits, Option.some.injEq]
      exact eq_comm
  | false =>
      rw [if_neg Bool.false_ne_true, pure_eq_ok]
      exact eq_comm

namespace Timecode

/-- Parsing finds the fields of the label and the signed item of their count. -/
theorem parse_eq_ok {label : String} {format : TimecodeFormat} {timecode : Timecode} :
    parse label format = .ok timecode ↔
      ∃ (negative : Bool) (fields : LabelFields) (valid : fields.Valid format),
        label.toList = signText negative ++ fields.text format.mode.separator ∧
          timecode.format = format ∧ (negative = true → timecode.frames ≠ 0) ∧
          timecode.frames = signed negative
            (itemOf format.period format.dropFramesPerMinute valid.components.count) := by
  constructor
  · intro h
    unfold parse at h
    have hsign := stripSign_eq label.toList
    simp only [bind_eq_ok, parseDigits_eq_ok, validateComponent, rejectIf_eq_ok, not_lt] at h
    obtain ⟨fields, hfields, _, ⟨⟨-, hhours⟩, hhoursFit, rfl⟩, _, ⟨⟨-, hminutes⟩, -, rfl⟩, _,
      ⟨⟨-, hseconds⟩, -, rfl⟩, _, ⟨⟨-, hframes⟩, -, rfl⟩, _, hminutesLt, _, hsecondsLt, _,
      hframesLt, _, hkept, magnitude, hmagnitude, result, hresult, hlast⟩ := h
    obtain ⟨htext, hmeasured⟩ := splitFields_of_ok hfields
    have hpos := format.nominalFps_pos
    let valid : fields.Valid format := ⟨hhours, hminutes, hseconds, hframes, hmeasured, hhoursFit,
      by omega, by omega, by omega, fun h => hkept (dropped_iff.2 h)⟩
    have hitem := labelMagnitude_eq valid.components hhoursFit
    cases hmagnitude.symm.trans hitem
    rw [applySign_eq_ok (itemOf_lt valid.components hhoursFit)] at hresult
    split at hlast
    · obtain ⟨_, hnonzero, hlast⟩ := bind_eq_ok.1 hlast
      rw [rejectIf_eq_ok] at hnonzero
      cases hlast
      refine ⟨(stripSign label.toList).1, fields, valid, ?_, rfl,
        fun hnegative hzero => hnonzero ⟨hnegative, hzero⟩, hresult⟩
      rw [← htext]
      exact hsign
    · cases hlast
  · rintro ⟨negative, fields, valid, hlabel, rfl, hnonzero, hframes⟩
    obtain ⟨frames, format, inRange⟩ := timecode
    have hpos := format.nominalFps_pos
    have hsplit := splitFields_text (plain_of_isDigits valid.hours)
      (plain_of_isDigits valid.minutes) (plain_of_isDigits valid.seconds)
      (plain_of_isDigits valid.frames) valid.measured
    have hne : ∀ {field : List Char}, 0 < byteLength field → field ≠ [] := by
      rintro field hlong rfl
      exact absurd hlong (lt_irrefl 0)
    obtain ⟨h₁, h₂, h₃, h₄⟩ := valid.measured
    have hwidth : 2 ≤ format.frameWidth := le_max_right _ _
    have hminutesPos : 0 < byteLength fields.minutes := by omega
    have hsecondsPos : 0 < byteLength fields.seconds := by omega
    have hframesPos : 0 < byteLength fields.frames := by
      rw [h₄]
      exact lt_of_lt_of_le two_pos hwidth
    unfold parse
    rw [hlabel, stripSign_signText (valid.head?_text _)]
    simp only [bind_eq_ok, parseDigits_eq_ok, validateComponent, rejectIf_eq_ok, not_lt]
    refine ⟨fields, hsplit, _, ⟨⟨valid.hours_ne_nil, valid.hours⟩, valid.hours_lt, rfl⟩, _,
      ⟨⟨hne hminutesPos, valid.minutes⟩, lt_trans valid.minutes_lt (by decide), rfl⟩, _,
      ⟨⟨hne hsecondsPos, valid.seconds⟩, lt_trans valid.seconds_lt (by decide), rfl⟩, _,
      ⟨⟨hne hframesPos, valid.frames⟩, ?_, rfl⟩, (), Nat.le_of_lt_succ valid.minutes_lt, (),
      Nat.le_of_lt_succ valid.seconds_lt, (), Nat.le_sub_one_of_lt valid.frames_lt, (),
      fun h => valid.kept (dropped_iff.1 h), _, labelMagnitude_eq valid.components valid.hours_lt, _,
      (applySign_eq_ok (itemOf_lt valid.components valid.hours_lt)).2 rfl, ?_⟩
    · exact lt_trans (lt_trans valid.frames_lt format.nominalFps_fits) (by decide)
    · have hframes' : frames = signed negative
          (itemOf format.period format.dropFramesPerMinute valid.components.count) := hframes
      simp only [← hframes', inRange, dif_pos]
      rw [bind_eq_ok]
      exact ⟨(), rejectIf_eq_ok.2 fun h => hnonzero h.1 h.2, rfl⟩

/-! ## Displayed labels -/

/-- The fields of the displayed label. -/
def fields (timecode : Timecode) (components : Components timecode.format.nominalFps) : LabelFields :=
  ⟨padded 2 components.hours, padded 2 components.minutes, padded 2 components.seconds,
    padded timecode.format.frameWidth components.frames⟩

theorem label_eq {timecode : Timecode} {components : Components timecode.format.nominalFps}
    (hcount : components.count = timecode.displayCount) :
    timecode.label = signText (decide (timecode.frames < 0)) ++
      (timecode.fields components).text timecode.format.mode.separator := by
  obtain ⟨h₁, h₂, h₃, h₄⟩ := components.count_div
  simp only [label, ← hcount, h₁, h₂, h₃, h₄, signText, decide_eq_true_eq]
  rfl

/-- The displayed fields pass the checks of parsing. -/
theorem fields_valid {timecode : Timecode} {components : Components timecode.format.nominalFps}
    (hcount : components.count = timecode.displayCount) :
    (timecode.fields components).Valid timecode.format := by
  have htwo : ∀ {n : Nat}, n < 60 → byteLength (padded 2 n) = 2 := by
    intro n hn
    rw [byteLength_of_isDigits (isDigits_padded 2 n), length_padded_of_lt two_pos (by omega)]
  have hskipped := @not_skipped_labelOf _ timecode.format.dropFramesPerMinute
    timecode.format.period_pos timecode.frames.natAbs
  rw [← displayCount_eq, ← hcount, Components.skipped_iff] at hskipped
  refine ⟨isDigits_padded _ _, isDigits_padded _ _, isDigits_padded _ _, isDigits_padded _ _,
    ⟨?_, htwo components.minutes_lt, htwo components.seconds_lt, ?_⟩, ?_, ?_, ?_, ?_, ?_⟩
  · rw [fields, byteLength_of_isDigits (isDigits_padded _ _)]
    exact le_length_padded
  · rw [fields, byteLength_of_isDigits (isDigits_padded _ _)]
    exact length_padded_of_lt (lt_of_lt_of_le two_pos (le_max_right _ _))
      (timecode.format.frame_lt components.frames_lt)
  · -- labels are at most twice their frames, which fit `i64`
    have hle := labelOf_le timecode.format.period_pos timecode.format.drop_le_period
      timecode.frames.natAbs
    rw [← displayCount_eq, ← hcount] at hle
    have hframes := timecode.inRange
    rw [inI64_iff] at hframes
    have hhours : components.hours * 3600 ≤ components.count := by
      have hpos := timecode.format.nominalFps_pos
      have hmul : components.hours * 3600 ≤
          components.hours * (timecode.format.nominalFps * 3600) :=
        Nat.mul_le_mul_left _ (by omega)
      rw [components.count_eq_hours]
      omega
    rw [fields, value_padded]
    omega
  · rw [fields, value_padded]
    exact components.minutes_lt
  · rw [fields, value_padded]
    exact components.seconds_lt
  · rw [fields, value_padded]
    exact components.frames_lt
  · simp only [fields, value_padded]
    exact hskipped

theorem signed_natAbs (n : Int) : signed (decide (n < 0)) n.natAbs = n := by
  rw [signed]
  split
  · rename_i hneg
    rw [decide_eq_true_eq] at hneg
    omega
  · rename_i hpos
    rw [decide_eq_true_eq] at hpos
    omega

/-- Parsing a displayed label gives the timecode back. -/
theorem parse_display (timecode : Timecode) :
    parse timecode.display timecode.format = .ok timecode := by
  obtain ⟨components, hcount⟩ :=
    Components.exists_count timecode.format.nominalFps_pos timecode.displayCount
  have valid := fields_valid hcount
  have hcomponents : valid.components.count = components.count := by
    simp only [LabelFields.Valid.components, fields, value_padded]
  refine parse_eq_ok.2 ⟨decide (timecode.frames < 0), timecode.fields components, valid, ?_, rfl,
    fun hnegative => ne_of_lt (of_decide_eq_true hnegative), ?_⟩
  · rw [display, String.toList_ofList, label_eq hcount]
  · rw [hcomponents, hcount, displayCount_eq, itemOf_labelOf timecode.format.period_pos,
      signed_natAbs]

/-- In every format parsing inverts the display of every frame, no two frames have one label, and no
displayed label is refused as dropped. -/
theorem labels_round_trip (format : TimecodeFormat) :
    (∀ (frames : Int) (inRange : InI64 frames),
      parse (display ⟨frames, format, inRange⟩) format = .ok ⟨frames, format, inRange⟩) ∧
    Function.Injective (fun frames : { n : Int // InI64 n } =>
      display ⟨frames.1, format, frames.2⟩) ∧
    ∀ (frames : Int) (inRange : InI64 frames) (minute frame : Nat),
      parse (display ⟨frames, format, inRange⟩) format ≠ .error (.droppedFrameLabel minute frame) := by
  have hparse : ∀ (frames : Int) (inRange : InI64 frames),
      parse (display ⟨frames, format, inRange⟩) format = .ok ⟨frames, format, inRange⟩ :=
    fun frames inRange => parse_display ⟨frames, format, inRange⟩
  refine ⟨hparse, ?_, fun frames inRange minute frame herror => ?_⟩
  · rintro ⟨left, hleft⟩ ⟨right, hright⟩ hlabel
    have hlabel' : display ⟨left, format, hleft⟩ = display ⟨right, format, hright⟩ := hlabel
    have hsame := hparse left hleft
    rw [hlabel', hparse right hright] at hsame
    cases hsame
    rfl
  · rw [hparse] at herror
    cases herror

/-! ## Labels that are not displayed -/

/-- The hour field of a label: what comes before the first delimiter, without the sign. -/
def hoursText (label : String) : List Char :=
  (stripSign label.toList).2.takeWhile fun c => !isDelimiter c

/-- The hour field is as wide as the display would make it: two characters, or no leading zero. -/
def CanonicalHours (label : String) : Prop :=
  (hoursText label).length = 2 ∨ (hoursText label).head? ≠ some '0'

instance (label : String) : Decidable (CanonicalHours label) :=
  inferInstanceAs (Decidable (_ ∨ _))

theorem hoursText_eq {label : String} {negative : Bool} {fields : LabelFields}
    {format : TimecodeFormat} (valid : fields.Valid format) {separator : Char}
    (hlabel : label.toList = signText negative ++ fields.text separator) :
    hoursText label = fields.hours := by
  rw [hoursText, hlabel, stripSign_signText (valid.head?_text _), LabelFields.text,
    List.takeWhile_append_of_pos, List.takeWhile_cons_of_neg, List.append_nil]
  · simp [isDelimiter]
  · intro c hc
    rw [plain_of_isDigits valid.hours c hc]
    rfl

theorem negative_iff {negative : Bool} {frames : Int} {magnitude : Nat}
    (hframes : frames = signed negative magnitude) (hnonzero : negative = true → frames ≠ 0) :
    decide (frames < 0) = negative ∧ frames.natAbs = magnitude := by
  cases negative with
  | true =>
      have hne := hnonzero rfl
      rw [signed, if_pos rfl] at hframes
      exact ⟨decide_eq_true (by omega), by omega⟩
  | false =>
      rw [signed, if_neg Bool.false_ne_true] at hframes
      exact ⟨decide_eq_false (by omega), by omega⟩

/-- A label that parses is the displayed label of its timecode exactly where its hour field is no
wider than the display would make it. -/
theorem display_eq_iff {label : String} {format : TimecodeFormat} {timecode : Timecode}
    (h : parse label format = .ok timecode) : timecode.display = label ↔ CanonicalHours label := by
  obtain ⟨negative, fields, valid, hlabel, rfl, hnonzero, hframes⟩ := parse_eq_ok.1 h
  obtain ⟨hnegative, hmagnitude⟩ := negative_iff hframes hnonzero
  have hcount : valid.components.count = timecode.displayCount := by
    rw [displayCount_eq, hmagnitude, labelOf_itemOf _ valid.not_skipped]
    exact lt_of_lt_of_le timecode.format.period_pos (Nat.le_add_right _ _)
  obtain ⟨h₁, h₂, h₃, h₄⟩ := valid.measured
  rw [byteLength_of_isDigits valid.hours] at h₁
  rw [byteLength_of_isDigits valid.minutes] at h₂
  rw [byteLength_of_isDigits valid.seconds] at h₃
  rw [byteLength_of_isDigits valid.frames] at h₄
  have hself : ∀ {width : Nat} {digits : List Char}, IsDigits digits → digits.length = width →
      0 < width → padded width (value digits) = digits := by
    rintro width digits hdigits rfl hpos
    exact padded_value hdigits (List.length_pos_iff.1 hpos)
  -- only the hour field can be printed in another width
  have hfields : timecode.fields valid.components =
      ⟨padded 2 (value fields.hours), fields.minutes, fields.seconds, fields.frames⟩ := by
    simp only [Timecode.fields, LabelFields.Valid.components, hself valid.minutes h₂ two_pos,
      hself valid.seconds h₃ two_pos,
      hself valid.frames h₄ (lt_of_lt_of_le two_pos (le_max_right _ _))]
  have hprint : timecode.display = label ↔ padded 2 (value fields.hours) = fields.hours := by
    rw [← String.toList_inj, display, String.toList_ofList, hlabel, label_eq hcount, hnegative,
      hfields, List.append_right_inj, LabelFields.text, LabelFields.text]
    exact List.append_left_inj _
  rw [hprint, CanonicalHours, hoursText_eq valid hlabel]
  exact padded_value_eq_iff valid.hours two_pos h₁

def fps24 : TimecodeFormat := .nonDrop ⟨.integer 24 Timebase.pos_24 Timebase.fits_24⟩

/-- The label of one hour. -/
theorem display_hour : display ⟨86400, fps24, by decide⟩ = "01:00:00:00" :=
  (@display_eq_iff _ fps24 _ (by decide +kernel)).2 (by decide +kernel)

/-- One hour has a second label, which is not displayed. -/
theorem parse_wide_hours : parse "001:00:00:00" fps24 = .ok ⟨86400, fps24, by decide⟩ ∧
    display ⟨86400, fps24, by decide⟩ ≠ "001:00:00:00" := by
  decide +kernel

end Timecode

end Core
end Superi

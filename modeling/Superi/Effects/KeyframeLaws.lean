import Superi.Effects.Keyframe

/-!
# KeyframeLaws — the order of the keys

While roving keys are placed, the previous one leaves a tick for each of those that are still to
come. So the bounds of a key are never crossed, whatever ratio it is placed by, and the times
increase.
-/

namespace Superi
namespace Effects

open Core Result

variable {F E : Type} {arithmetic : Arithmetic F}

/-- Coordinates in the order of the keys. -/
abbrev Increasing (values : List Int) : Prop := values.Pairwise (· < ·)

/-- Every ratio is rounded to a tick of the span. -/
def RoundsWithin (arithmetic : Arithmetic F) : Prop :=
  ∀ span ratio, 0 ≤ span →
    0 ≤ arithmetic.roundWithin span ratio ∧ arithmetic.roundWithin span ratio ≤ span

/-! ## One span -/

theorem checkedRoving_of_inI64 {value : Int} (h : InI64 value) (message : String) :
    checkedRoving value message = .ok value := if_pos h

theorem i64OrMax_of_le {count : Nat} (h : (count : Int) ≤ i64Max) : i64OrMax count = count :=
  if_pos h

/-- Bounds that are not crossed leave a coordinate between them. -/
theorem clampTime_of_le {minimum maximum : Int} (horder : minimum ≤ maximum)
    (hminimum : InI64 minimum) (hmaximum : InI64 maximum) (value : Int) (timebase : Timebase) :
    ∃ candidate : RationalTime, clampTime value minimum maximum timebase = pure candidate ∧
      candidate.timebase = timebase ∧ minimum ≤ candidate.value ∧ candidate.value ≤ maximum := by
  have hlow : minimum ≤ max minimum (min value maximum) := le_max_left _ _
  have hhigh : max minimum (min value maximum) ≤ maximum := max_le horder (min_le_right _ _)
  have hrange : InI64 (max minimum (min value maximum)) :=
    ⟨hminimum.1.trans hlow, hhigh.trans hmaximum.2⟩
  exact ⟨⟨_, timebase, hrange⟩, dif_pos ⟨horder, hrange⟩, rfl, hlow, hhigh⟩

/-- A placement of `count` keys between two coordinates: it is never undefined, and its times, if it
has any, are of the timebase and in order. -/
structure Places (timebase : Timebase) (count : Nat) (previous stop : Int)
    (placement : Machine (List RationalTime)) : Prop where
  defined : placement.run ≠ none
  length : ∀ times, placement.run = some (.ok times) → times.length = count
  clock : ∀ times, placement.run = some (.ok times) → ∀ time ∈ times, time.timebase = timebase
  increasing : ∀ times, placement.run = some (.ok times) →
    Increasing (previous :: times.map RationalTime.value ++ [stop])

/-- The room that the previous key leaves. -/
structure Room (start stop : RationalTime) (intervals offset : Nat) (previous : Int)
    (remaining : Nat) : Prop where
  count : remaining + offset = intervals
  fits : (intervals : Int) ≤ i64Max
  begun : start.value ≤ previous
  enough : previous + remaining + 1 ≤ stop.value

namespace Room

variable {start stop : RationalTime} {intervals offset remaining : Nat} {previous : Int}

theorem minimum (h : Room start stop intervals offset previous (remaining + 1)) :
    InI64 (previous + 1) := by
  have hstart := start.inRange.1
  have hstop := stop.inRange.2
  have hbegun := h.begun
  have henough := h.enough
  push_cast at henough
  constructor
  · omega
  · omega

theorem remaining_eq (h : Room start stop intervals offset previous (remaining + 1)) :
    i64OrMax (intervals - offset) = (remaining + 1 : Nat) := by
  have hcount : intervals - offset = remaining + 1 := by
    have hsum := h.count
    omega
  have hfits := h.fits
  have hsum := h.count
  rw [hcount]
  exact i64OrMax_of_le (by omega)

theorem maximum (h : Room start stop intervals offset previous (remaining + 1)) :
    InI64 (stop.value - (remaining + 1 : Nat)) := by
  have hstart := start.inRange.1
  have hstop := stop.inRange.2
  have hbegun := h.begun
  have henough := h.enough
  push_cast at henough ⊢
  constructor
  · omega
  · omega

/-- The bounds of a roving key are not crossed. -/
theorem ordered (h : Room start stop intervals offset previous (remaining + 1)) :
    previous + 1 ≤ stop.value - (remaining + 1 : Nat) := by
  have henough := h.enough
  push_cast at henough ⊢
  omega

/-- A key within its bounds leaves room for the next. -/
theorem next (h : Room start stop intervals offset previous (remaining + 1)) {candidate : Int}
    (hlow : previous + 1 ≤ candidate) (hhigh : candidate ≤ stop.value - (remaining + 1 : Nat)) :
    Room start stop intervals (offset + 1) candidate remaining := by
  have hsum := h.count
  have hbegun := h.begun
  push_cast at hhigh
  exact ⟨by omega, h.fits, by omega, by omega⟩

variable (arithmetic) in
/-- What is left of placing one key: the check of its position. -/
theorem placeRoving_cons (h : Room start stop intervals offset previous (remaining + 1))
    (span : Int) (total cumulative weight : F) (weights : List F) :
    ∃ relative : Int,
      relative = arithmetic.roundWithin span (rovingRatio arithmetic
        (arithmetic.add cumulative weight) total offset intervals) ∧
      ((¬ InI64 (start.value + relative) ∧
        (placeRoving arithmetic start stop span total intervals offset cumulative previous
          (weight :: weights)).run = some (.error (animationError "resolve_roving"
            "roving allocation exceeded the supported time range"))) ∨
      (InI64 (start.value + relative) ∧
        ∃ candidate : RationalTime, candidate.timebase = start.timebase ∧
          previous + 1 ≤ candidate.value ∧
          candidate.value ≤ stop.value - (remaining + 1 : Nat) ∧
          placeRoving arithmetic start stop span total intervals offset cumulative previous
            (weight :: weights) =
            (placeRoving arithmetic start stop span total intervals (offset + 1)
              (arithmetic.add cumulative weight) candidate.value weights >>=
                fun later => pure (candidate :: later)))) := by
  refine ⟨_, rfl, ?_⟩
  obtain ⟨candidate, hclamp, htimebase, hlow, hhigh⟩ := clampTime_of_le h.ordered h.minimum
    h.maximum (start.value + arithmetic.roundWithin span (rovingRatio arithmetic
      (arithmetic.add cumulative weight) total offset intervals)) start.timebase
  by_cases hposition : InI64 (start.value + arithmetic.roundWithin span (rovingRatio arithmetic
      (arithmetic.add cumulative weight) total offset intervals))
  · right
    refine ⟨hposition, candidate, htimebase, hlow, hhigh, ?_⟩
    simp only [placeRoving, h.remaining_eq, checkedRoving_of_inI64 h.minimum,
      checkedRoving_of_inI64 h.maximum, checkedRoving_of_inI64 hposition, Machine.lift_ok,
      pure_bind, hclamp]
  · left
    refine ⟨hposition, ?_⟩
    simp only [placeRoving, h.remaining_eq, checkedRoving_of_inI64 h.minimum,
      checkedRoving_of_inI64 h.maximum, Machine.lift_ok, pure_bind]
    rw [checkedRoving, if_neg hposition]
    rfl

end Room

/-- The keys that are still to come, by induction on their distances. -/
theorem placeRoving_places {start stop : RationalTime} {span : Int} {total cumulative : F}
    {intervals offset : Nat} {previous : Int} {weights : List F}
    (h : Room start stop intervals offset previous weights.length) :
    Places start.timebase weights.length previous stop.value
      (placeRoving arithmetic start stop span total intervals offset cumulative previous
        weights) := by
  induction weights generalizing offset cumulative previous with
  | nil =>
      have hlast : previous < stop.value := by
        have henough := h.enough
        simp only [List.length_nil] at henough
        omega
      refine ⟨Option.some_ne_none _, ?_, ?_, ?_⟩
      · rintro times ⟨⟩
        rfl
      · rintro times ⟨⟩ time hmem
        cases hmem
      · rintro times ⟨⟩
        simpa using hlast
  | cons weight weights ih =>
      obtain ⟨relative, -, ⟨-, hrun⟩ | ⟨-, candidate, htimebase, hlow, hhigh, hstep⟩⟩ :=
        h.placeRoving_cons arithmetic span total cumulative weight weights
      · refine ⟨?_, ?_, ?_, ?_⟩
        all_goals
          rw [hrun]
          simp
      · have hlater := @ih (arithmetic.add cumulative weight) _ _ (h.next hlow hhigh)
        rw [hstep]
        refine ⟨?_, ?_, ?_, ?_⟩
        · intro hnone
          rcases Machine.run_bind_eq_none.1 hnone with hnone | ⟨later, -, hnone⟩
          · exact hlater.defined hnone
          · cases hnone
        · intro times htimes
          obtain ⟨later, hrun, hcons⟩ := Machine.run_bind_eq_ok.1 htimes
          cases hcons
          rw [List.length_cons, hlater.length later hrun, List.length_cons]
        · intro times htimes time hmem
          obtain ⟨later, hrun, hcons⟩ := Machine.run_bind_eq_ok.1 htimes
          cases hcons
          rcases List.mem_cons.1 hmem with rfl | hmem
          · exact htimebase
          · exact hlater.clock later hrun time hmem
        · intro times htimes
          obtain ⟨later, hrun, hcons⟩ := Machine.run_bind_eq_ok.1 htimes
          cases hcons
          have horder := hlater.increasing later hrun
          have hfirst : previous < candidate.value := by omega
          rw [List.cons_append] at horder
          rw [List.map_cons, List.cons_append, List.cons_append]
          refine List.pairwise_cons.2 ⟨?_, horder⟩
          intro value hvalue
          rcases List.mem_cons.1 hvalue with rfl | hvalue
          · exact hfirst
          · exact hfirst.trans ((List.pairwise_cons.1 horder).1 value hvalue)

/-- A span that every ratio is rounded into is filled without an overflow. -/
theorem placeRoving_total {start stop : RationalTime} (total cumulative : F) {intervals offset : Nat}
    {previous : Int} {weights : List F} (hround : RoundsWithin arithmetic)
    (h : Room start stop intervals offset previous weights.length) :
    ∃ times, (placeRoving arithmetic start stop (stop.value - start.value) total intervals offset
      cumulative previous weights).run = some (.ok times) := by
  induction weights generalizing offset cumulative previous with
  | nil => exact ⟨[], rfl⟩
  | cons weight weights ih =>
      obtain ⟨relative, hrelative, ⟨hout, -⟩ | ⟨-, candidate, -, hlow, hhigh, hstep⟩⟩ :=
        h.placeRoving_cons arithmetic (stop.value - start.value) total cumulative
          weight weights
      · have hspan : 0 ≤ stop.value - start.value := by
          have hbegun := h.begun
          have henough := h.enough
          omega
        obtain ⟨hnonneg, hle⟩ := hround _ (rovingRatio arithmetic
          (arithmetic.add cumulative weight) total offset intervals) hspan
        rw [← hrelative] at hnonneg hle
        have hstart := start.inRange.1
        have hstop := stop.inRange.2
        exact absurd ⟨by omega, by omega⟩ hout
      · obtain ⟨later, hlater⟩ := ih (arithmetic.add cumulative weight) (h.next hlow hhigh)
        rw [hstep]
        exact ⟨candidate :: later, Machine.run_bind_eq_ok.2 ⟨later, hlater, rfl⟩⟩

theorem spanWeights_length {keyframes : List (Keyframe F)} {weights : List F}
    (h : spanWeights arithmetic keyframes = .ok weights) :
    weights.length = keyframes.length - 1 := by
  induction keyframes generalizing weights with
  | nil =>
      cases h
      rfl
  | cons left rest ih =>
      cases rest with
      | nil =>
          cases h
          rfl
      | cons right rest =>
          obtain ⟨-, -, h⟩ := bind_eq_ok.1 h
          obtain ⟨later, hlater, h⟩ := bind_eq_ok.1 h
          cases h
          rw [List.length_cons, ih hlater]
          rfl

theorem animationError_inj {operation message message' : String} :
    animationError operation message = animationError operation message' ↔ message = message' := by
  simp [animationError, Error.new, Error.withContext]

theorem spanWeights_eq_error {keyframes : List (Keyframe F)} {error : Error}
    (h : spanWeights arithmetic keyframes = .error error) :
    error = animationError "resolve_roving" "roving value distance must remain finite" := by
  induction keyframes with
  | nil => cases h
  | cons left rest ih =>
      cases rest with
      | nil => cases h
      | cons right rest =>
          rcases bind_eq_error.1 h with hfinite | ⟨_, -, h⟩
          · exact (rejectIf_eq_error.1 hfinite).2.symm
          · rcases bind_eq_error.1 h with hlater | ⟨_, -, h⟩
            · exact ih hlater
            · cases h

variable (arithmetic) in
/-- Two anchors and the roving keys between them: the span is refused, or its keys are placed with
room for each. -/
theorem allocateRovingSpan_cases {keyframes : List (Keyframe F)} (start stop : RationalTime)
    {count : Nat} (hlength : keyframes.length = count + 2) (hfits : (count + 1 : Nat) ≤ i64Max) :
    (∃ message, message ≠ "roving allocation exceeded the supported time range" ∧
      (allocateRovingSpan arithmetic keyframes start stop).run =
        some (.error (animationError "resolve_roving" message))) ∨
    ∃ (total : F) (weights : List F), weights.length = count ∧
      Room start stop (count + 1) 1 start.value count ∧
      allocateRovingSpan arithmetic keyframes start stop =
        placeRoving arithmetic start stop (stop.value - start.value) total (count + 1) 1
          arithmetic.zero start.value weights := by
  have hintervals : keyframes.length - 1 = count + 1 := by omega
  simp only [allocateRovingSpan, hintervals]
  by_cases hspan : InI64 (stop.value - start.value)
  · rw [checkedRoving_of_inI64 hspan]
    simp only [Machine.lift_ok, pure_bind, i64OrMax_of_le hfits]
    by_cases hnarrow : stop.value - start.value < (count + 1 : Nat)
    · left
      simp only [rejectIf, if_pos hnarrow]
      exact ⟨_, by decide +kernel, rfl⟩
    · simp only [rejectIf, if_neg hnarrow, Machine.lift_ok, pure_bind]
      cases hweights : spanWeights arithmetic keyframes with
      | error error =>
          left
          cases spanWeights_eq_error hweights
          exact ⟨_, by decide +kernel, rfl⟩
      | ok weights =>
          simp only [Machine.lift_ok, pure_bind]
          by_cases hfinite : arithmetic.isFinite
              (weights.foldl arithmetic.add arithmetic.zero) = false
          · left
            simp only [if_pos hfinite]
            exact ⟨_, by decide +kernel, rfl⟩
          · right
            simp only [if_neg hfinite, Machine.lift_ok, pure_bind]
            have hcount : weights.dropLast.length = count := by
              rw [List.length_dropLast, spanWeights_length hweights, hintervals]
              rfl
            refine ⟨_, weights.dropLast, hcount, ⟨rfl, hfits, le_refl _, ?_⟩, rfl⟩
            push_cast at hnarrow
            omega
  · left
    rw [checkedRoving, if_neg hspan]
    exact ⟨_, by decide +kernel, rfl⟩

theorem allocateRovingSpan_places {keyframes : List (Keyframe F)} {start stop : RationalTime}
    {count : Nat} (hlength : keyframes.length = count + 2) (hfits : (count + 1 : Nat) ≤ i64Max) :
    Places start.timebase count start.value stop.value
      (allocateRovingSpan arithmetic keyframes start stop) := by
  rcases allocateRovingSpan_cases arithmetic start stop hlength hfits with
    ⟨message, -, hrun⟩ | ⟨total, weights, hcount, hroom, heq⟩
  · refine ⟨?_, ?_, ?_, ?_⟩
    all_goals
      rw [hrun]
      simp
  · rw [heq, ← hcount]
    rw [← hcount] at hroom
    exact placeRoving_places hroom

/-- The error of an allocation that leaves the range of coordinates. -/
def allocationExceeded : Error :=
  animationError "resolve_roving" "roving allocation exceeded the supported time range"

theorem ne_exceeded {message : String}
    (hmessage : message ≠ "roving allocation exceeded the supported time range") :
    (Machine.lift (.error (animationError "resolve_roving" message)) :
      Machine (List RationalTime)).run ≠ some (.error allocationExceeded) := by
  intro hexceeded
  exact hmessage (animationError_inj.1 (Except.error.inj (Option.some.inj hexceeded)))

theorem allocateRovingSpan_ne_exceeded {keyframes : List (Keyframe F)} {start stop : RationalTime}
    {count : Nat} (hround : RoundsWithin arithmetic) (hlength : keyframes.length = count + 2)
    (hfits : (count + 1 : Nat) ≤ i64Max) :
    (allocateRovingSpan arithmetic keyframes start stop).run ≠ some (.error allocationExceeded) := by
  intro hexceeded
  rcases allocateRovingSpan_cases arithmetic start stop hlength hfits with
    ⟨message, hmessage, hrun⟩ | ⟨total, weights, hcount, hroom, heq⟩
  · rw [hrun] at hexceeded
    exact ne_exceeded hmessage hexceeded
  · rw [← hcount] at hroom
    obtain ⟨times, htimes⟩ := placeRoving_total total arithmetic.zero hround hroom
    rw [hcount] at htimes
    rw [heq, htimes] at hexceeded
    cases hexceeded

/-! ## All keys -/

/-- The authored times. -/
def fixedTimes (keyframes : List (Keyframe F)) : List RationalTime :=
  keyframes.filterMap fun keyframe => keyframe.timing.time?

/-- What the checks establish of the authored times. -/
structure Anchored (timebase : Timebase) (keyframes : List (Keyframe F)) : Prop where
  clock : ∀ time ∈ fixedTimes keyframes, time.timebase = timebase
  increasing : Increasing ((fixedTimes keyframes).map RationalTime.value)
  fits : (keyframes.length : Int) ≤ i64Max

/-- A fixed key keeps its time. -/
def Keeps (keyframe : Keyframe F) (time : RationalTime) : Prop :=
  ∀ fixed, keyframe.timing = .fixed fixed → time = fixed

/-- A resolution of the times of a curve: never undefined, one time for each key, in order. -/
structure Resolves (timebase : Timebase) (keyframes : List (Keyframe F))
    (resolution : Machine (List RationalTime)) : Prop where
  defined : resolution.run ≠ none
  keeps : ∀ times, resolution.run = some (.ok times) → List.Forall₂ Keeps keyframes times
  clock : ∀ times, resolution.run = some (.ok times) → ∀ time ∈ times, time.timebase = timebase
  increasing : ∀ times, resolution.run = some (.ok times) →
    Increasing (times.map RationalTime.value)

theorem Resolves.refused (timebase : Timebase) (keyframes : List (Keyframe F)) {error : Error} :
    Resolves timebase keyframes (Machine.lift (.error error)) :=
  ⟨fun hnone => by (cases hnone), fun _ htimes => by (cases htimes), fun _ htimes => by (cases htimes),
    fun _ htimes => by (cases htimes)⟩

theorem increasing_split {before after : List Int} {middle : Int} :
    Increasing (before ++ middle :: after) ↔
      Increasing (before ++ [middle]) ∧ Increasing (middle :: after) := by
  simp only [Increasing, ← List.isChain_iff_pairwise]
  exact List.isChain_split

theorem keeps_roving {between : List (Keyframe F)} {times : List RationalTime}
    (hroving : ∀ keyframe ∈ between, keyframe.timing.isFixed = false)
    (hlength : times.length = between.length) : List.Forall₂ Keeps between times := by
  rw [List.forall₂_iff_zip]
  refine ⟨hlength.symm, fun {keyframe time} hmem fixed hfixed => ?_⟩
  have hfalse := hroving keyframe (List.of_mem_zip hmem).1
  rw [hfixed] at hfalse
  cases hfalse

theorem resolveSpan_places {left right : Keyframe F} {between : List (Keyframe F)}
    {start stop : RationalTime} (hbefore : start.value < stop.value)
    (hfits : (between.length + 1 : Nat) ≤ i64Max) :
    Places start.timebase between.length start.value stop.value
      (resolveSpan arithmetic (left :: between ++ [right]) start stop) := by
  unfold resolveSpan
  split
  · refine allocateRovingSpan_places ?_ hfits
    simp
  · next hadjacent =>
      have hempty : between = [] := by
        rw [List.length_append, List.length_cons, List.length_singleton] at hadjacent
        exact List.eq_nil_of_length_eq_zero (by omega)
      rw [hempty]
      refine ⟨Option.some_ne_none _, ?_, ?_, ?_⟩
      · rintro times ⟨⟩
        rfl
      · rintro times ⟨⟩ time hmem
        cases hmem
      · rintro times ⟨⟩
        simpa using hbefore

theorem fixedTimes_split {left right : Keyframe F} {between : List (Keyframe F)}
    (after : List (Keyframe F)) {leftTime rightTime : RationalTime} (hleft : left.timing = .fixed leftTime)
    (hright : right.timing = .fixed rightTime)
    (hroving : ∀ keyframe ∈ between, keyframe.timing.isFixed = false) :
    fixedTimes (left :: (between ++ right :: after)) = leftTime :: fixedTimes (right :: after) ∧
      fixedTimes (right :: after) = rightTime :: fixedTimes after := by
  have hnone : between.filterMap (fun keyframe => keyframe.timing.time?) = [] := by
    rw [List.filterMap_eq_nil_iff]
    intro keyframe hkeyframe
    have hfalse := hroving keyframe hkeyframe
    cases htiming : keyframe.timing with
    | fixed time =>
        rw [htiming] at hfalse
        cases hfalse
    | roving => rfl
  have hlater : fixedTimes (right :: after) = rightTime :: fixedTimes after := by
    rw [fixedTimes, List.filterMap_cons, hright]
    rfl
  refine ⟨?_, hlater⟩
  rw [← List.nil_append (fixedTimes (right :: after)), ← hnone, fixedTimes, List.filterMap_cons,
    hleft, List.filterMap_append]
  rfl

section Equations

variable {left right : Keyframe F} {rest between after : List (Keyframe F)}
  {leftTime rightTime : RationalTime}

theorem resolveRovingTimes_roving (hleft : left.timing = .roving) :
    resolveRovingTimes arithmetic (left :: rest) = Machine.lift (.error
      (animationError "resolve_roving" "roving keyframe has no fixed left anchor")) := by
  rw [resolveRovingTimes, hleft]

theorem resolveRovingTimes_last (hleft : left.timing = .fixed leftTime) :
    resolveRovingTimes arithmetic [left] = pure [leftTime] := by
  rw [resolveRovingTimes, hleft]
  rfl

theorem resolveRovingTimes_unanchored (hleft : left.timing = .fixed leftTime) (hrest : rest ≠ [])
    (hroving : ∀ keyframe ∈ rest, keyframe.timing.isFixed = false) :
    resolveRovingTimes arithmetic (left :: rest) = Machine.lift (.error
      (animationError "resolve_roving" "roving keyframe has no fixed right anchor")) := by
  have hsplit : Sequence.splitFirst (·.timing.isFixed) rest = none :=
    Sequence.splitFirst_eq_none.2 hroving
  rw [resolveRovingTimes, hleft]
  simp only [if_neg hrest]
  split
  · rfl
  · next hsome =>
      rw [hsplit] at hsome
      cases hsome

theorem resolveRovingTimes_span (hleft : left.timing = .fixed leftTime)
    (hright : right.timing = .fixed rightTime)
    (hroving : ∀ keyframe ∈ between, keyframe.timing.isFixed = false) :
    resolveRovingTimes arithmetic (left :: (between ++ right :: after)) =
      (resolveSpan arithmetic (left :: between ++ [right]) leftTime rightTime >>= fun roving =>
        resolveRovingTimes arithmetic (right :: after) >>= fun later =>
          pure (leftTime :: roving ++ later)) := by
  have hfixed : right.timing.isFixed = true := by
    rw [hright]
    rfl
  have hsplit : Sequence.splitFirst (·.timing.isFixed) (between ++ right :: after) =
      some (between, right, after) := Sequence.splitFirst_append hfixed hroving
  have hrest : between ++ right :: after ≠ [] := by simp
  rw [resolveRovingTimes, hleft]
  simp only [if_neg hrest]
  split
  · next hnone =>
      rw [hsplit] at hnone
      cases hnone
  · next hsome =>
      rw [hsplit] at hsome
      cases hsome
      rw [hright]

end Equations

/-- How some keys fall into spans, each from one fixed key to the next. -/
inductive Resolving : List (Keyframe F) → Prop
  | nil : Resolving []
  | roving {left : Keyframe F} {rest : List (Keyframe F)} (hleft : left.timing = .roving) :
      Resolving (left :: rest)
  | last {left : Keyframe F} {leftTime : RationalTime} (hleft : left.timing = .fixed leftTime) :
      Resolving [left]
  | unanchored {left : Keyframe F} {rest : List (Keyframe F)} {leftTime : RationalTime}
      (hleft : left.timing = .fixed leftTime) (hrest : rest ≠ [])
      (hroving : ∀ keyframe ∈ rest, keyframe.timing.isFixed = false) : Resolving (left :: rest)
  | span {left right : Keyframe F} {between after : List (Keyframe F)}
      {leftTime rightTime : RationalTime} (hleft : left.timing = .fixed leftTime)
      (hright : right.timing = .fixed rightTime)
      (hroving : ∀ keyframe ∈ between, keyframe.timing.isFixed = false)
      (hafter : Resolving (right :: after)) : Resolving (left :: (between ++ right :: after))

theorem resolving (keyframes : List (Keyframe F)) : Resolving keyframes := by
  induction keyframes using resolveRovingTimes.induct with
  | case1 => exact .nil
  | case2 left rest hleft => exact .roving hleft
  | case3 left leftTime hleft => exact .last hleft
  | case4 left rest leftTime hleft hrest hsplit =>
      exact .unanchored hleft hrest (Sequence.splitFirst_eq_none.1 hsplit)
  | case5 left rest leftTime hleft hrest between right after hsplit hright =>
      -- the key that was found is fixed
      have hfixed := (Sequence.splitFirst_eq_some hsplit).2.1
      rw [hright] at hfixed
      cases hfixed
  | case6 left rest leftTime hleft hrest between right after hsplit rightTime hright ih =>
      obtain ⟨rfl, -, hroving⟩ := Sequence.splitFirst_eq_some hsplit
      exact .span hleft hright hroving ih

theorem Anchored.after {timebase : Timebase} {left right : Keyframe F}
    {between after : List (Keyframe F)} {leftTime rightTime : RationalTime}
    (h : Anchored timebase (left :: (between ++ right :: after)))
    (hleft : left.timing = .fixed leftTime) (hright : right.timing = .fixed rightTime)
    (hroving : ∀ keyframe ∈ between, keyframe.timing.isFixed = false) :
    Anchored timebase (right :: after) ∧ leftTime.timebase = timebase ∧
      leftTime.value < rightTime.value ∧ (between.length + 1 : Nat) ≤ i64Max := by
  obtain ⟨hall, hlater⟩ := fixedTimes_split after hleft hright hroving
  have hclock := h.clock
  have hincreasing := h.increasing
  have hfits := h.fits
  rw [hall] at hclock hincreasing
  rw [List.map_cons] at hincreasing
  obtain ⟨hfirst, hrest⟩ := List.pairwise_cons.1 hincreasing
  rw [List.length_cons, List.length_append, List.length_cons] at hfits
  refine ⟨⟨fun time hmem => hclock time (List.mem_cons_of_mem _ hmem), hrest, ?_⟩,
    hclock leftTime List.mem_cons_self, ?_, ?_⟩
  · rw [List.length_cons]
    omega
  · refine hfirst rightTime.value ?_
    rw [hlater, List.map_cons]
    exact List.mem_cons_self
  · omega

variable (arithmetic) in
/-- From one fixed key to the next. -/
theorem resolveRovingTimes_resolves {timebase : Timebase} {keyframes : List (Keyframe F)}
    (h : Anchored timebase keyframes) :
    Resolves timebase keyframes (resolveRovingTimes arithmetic keyframes) := by
  induction resolving keyframes with
  | nil =>
      rw [resolveRovingTimes]
      refine ⟨Option.some_ne_none _, ?_, ?_, ?_⟩
      · rintro times ⟨⟩
        exact .nil
      · rintro times ⟨⟩ time hmem
        cases hmem
      · rintro times ⟨⟩
        exact .nil
  | roving hleft =>
      rw [resolveRovingTimes_roving hleft]
      exact .refused _ _
  | unanchored hleft hrest hroving =>
      rw [resolveRovingTimes_unanchored hleft hrest hroving]
      exact .refused _ _
  | @last left leftTime hleft =>
      rw [resolveRovingTimes_last hleft]
      refine ⟨Option.some_ne_none _, ?_, ?_, ?_⟩
      · rintro times ⟨⟩
        refine .cons (fun fixed hfixed => ?_) .nil
        rw [hleft] at hfixed
        cases hfixed
        rfl
      · rintro times ⟨⟩ time hmem
        rw [List.mem_singleton.1 hmem]
        refine h.clock leftTime ?_
        rw [fixedTimes, List.filterMap_cons, hleft]
        exact List.mem_cons_self
      · rintro times ⟨⟩
        exact List.pairwise_singleton _ _
  | @span left right between after leftTime rightTime hleft hright hroving _ ih =>
      obtain ⟨hafter, hclock, hbefore, hfits⟩ := h.after hleft hright hroving
      have hplaces : Places leftTime.timebase between.length leftTime.value rightTime.value
          (resolveSpan arithmetic (left :: between ++ [right]) leftTime rightTime) :=
        resolveSpan_places hbefore hfits
      have hlater := ih hafter
      rw [resolveRovingTimes_span hleft hright hroving]
      -- both parts have an outcome where the whole has one
      have hparts : ∀ times, (resolveSpan arithmetic (left :: between ++ [right]) leftTime rightTime
            >>= fun roving => resolveRovingTimes arithmetic (right :: after) >>= fun later =>
              pure (leftTime :: roving ++ later)).run = some (.ok times) →
          ∃ roving later, (resolveSpan arithmetic (left :: between ++ [right]) leftTime
              rightTime).run = some (.ok roving) ∧
            (resolveRovingTimes arithmetic (right :: after)).run = some (.ok later) ∧
            times = leftTime :: roving ++ later := by
        intro times htimes
        obtain ⟨roving, hroving, htimes⟩ := Machine.run_bind_eq_ok.1 htimes
        obtain ⟨later, hlater, htimes⟩ := Machine.run_bind_eq_ok.1 htimes
        cases htimes
        exact ⟨roving, later, hroving, hlater, rfl⟩
      refine ⟨?_, ?_, ?_, ?_⟩
      · intro hnone
        rcases Machine.run_bind_eq_none.1 hnone with hnone | ⟨_, -, hnone⟩
        · exact hplaces.defined hnone
        · rcases Machine.run_bind_eq_none.1 hnone with hnone | ⟨_, -, hnone⟩
          · exact hlater.defined hnone
          · cases hnone
      · intro times htimes
        obtain ⟨roving, later, hspan, hrest, rfl⟩ := hparts times htimes
        refine .cons (fun fixed hfixed => ?_) ?_
        · rw [hleft] at hfixed
          cases hfixed
          rfl
        · exact List.rel_append (keeps_roving hroving (hplaces.length roving hspan))
            (hlater.keeps later hrest)
      · intro times htimes time hmem
        obtain ⟨roving, later, hspan, hrest, rfl⟩ := hparts times htimes
        rcases List.mem_append.1 hmem with hmem | hmem
        · rcases List.mem_cons.1 hmem with rfl | hmem
          · exact hclock
          · exact (hplaces.clock roving hspan time hmem).trans hclock
        · exact hlater.clock later hrest time hmem
      · intro times htimes
        obtain ⟨roving, later, hspan, hrest, rfl⟩ := hparts times htimes
        have hkeeps := hlater.keeps later hrest
        have horder := hlater.increasing later hrest
        cases hkeeps with
        | @cons _ time _ later hkeep _ =>
            obtain rfl : time = rightTime := hkeep rightTime hright
            rw [List.map_append, List.map_cons, List.map_cons, increasing_split]
            rw [List.map_cons] at horder
            exact ⟨hplaces.increasing roving hspan, horder⟩

/-- No sum leaves the range, if every ratio is rounded into its span. -/
theorem resolveRovingTimes_ne_exceeded {timebase : Timebase} {keyframes : List (Keyframe F)}
    (hround : RoundsWithin arithmetic) (h : Anchored timebase keyframes) :
    (resolveRovingTimes arithmetic keyframes).run ≠ some (.error allocationExceeded) := by
  induction resolving keyframes with
  | nil =>
      rw [resolveRovingTimes]
      rintro ⟨⟩
  | roving hleft =>
      rw [resolveRovingTimes_roving hleft]
      exact ne_exceeded (by decide +kernel)
  | unanchored hleft hrest hroving =>
      rw [resolveRovingTimes_unanchored hleft hrest hroving]
      exact ne_exceeded (by decide +kernel)
  | last hleft =>
      rw [resolveRovingTimes_last hleft]
      rintro ⟨⟩
  | @span left right between after leftTime rightTime hleft hright hroving _ ih =>
      obtain ⟨hafter, -, -, hfits⟩ := h.after hleft hright hroving
      rw [resolveRovingTimes_span hleft hright hroving]
      intro hexceeded
      rcases Machine.run_bind_eq_error.1 hexceeded with hspan | ⟨_, -, hexceeded⟩
      · unfold resolveSpan at hspan
        split at hspan
        · refine allocateRovingSpan_ne_exceeded hround ?_ hfits hspan
          simp
        · cases hspan
      · rcases Machine.run_bind_eq_error.1 hexceeded with hlater | ⟨_, -, hexceeded⟩
        · exact ih hafter hlater
        · cases hexceeded

/-! ## Accepted curves -/

theorem fixedTimes_cons (keyframe : Keyframe F) (rest : List (Keyframe F)) :
    fixedTimes (keyframe :: rest) = keyframe.timing.time?.toList ++ fixedTimes rest := by
  rw [fixedTimes, List.filterMap_cons]
  cases keyframe.timing.time? <;> rfl

theorem checkKeyframes_eq_ok {timebase : Timebase} {componentCount : Nat} {previous : Option Int}
    {keyframes : List (Keyframe F)}
    (h : checkKeyframes timebase componentCount previous keyframes = .ok ()) :
    (∀ time ∈ fixedTimes keyframes, time.timebase = timebase) ∧
      Increasing (previous.toList ++ (fixedTimes keyframes).map RationalTime.value) := by
  induction keyframes generalizing previous with
  | nil =>
      refine ⟨fun time hmem => by (cases hmem), ?_⟩
      cases previous with
      | none => exact .nil
      | some value => exact List.pairwise_singleton _ _
  | cons keyframe rest ih =>
      obtain ⟨-, -, h⟩ := bind_eq_ok.1 h
      obtain ⟨-, -, h⟩ := bind_eq_ok.1 h
      rw [fixedTimes_cons]
      cases htiming : keyframe.timing with
      | roving =>
          rw [htiming] at h
          exact ih h
      | fixed time =>
          rw [htiming] at h
          obtain ⟨_, hclock, h⟩ := bind_eq_ok.1 h
          obtain ⟨_, hlater, h⟩ := bind_eq_ok.1 h
          obtain ⟨hrest, hincreasing⟩ := ih h
          have htimebase := not_not.1 (rejectIf_eq_ok.1 hclock)
          refine ⟨?_, ?_⟩
          · intro other hother
            rcases List.mem_cons.1 hother with rfl | hother
            · exact htimebase
            · exact hrest other hother
          · cases previous with
            | none => exact hincreasing
            | some value =>
                have hvalue : value < time.value := by
                  have hnot := rejectIf_eq_ok.1 hlater
                  simpa using hnot
                refine List.pairwise_cons.2 ⟨?_, hincreasing⟩
                intro other hother
                rcases List.mem_cons.1 hother with rfl | hother
                · exact hvalue
                · exact hvalue.trans ((List.pairwise_cons.1 hincreasing).1 other hother)

theorem checkCurve_eq_ok {timebase : Timebase} {keyframes : List (Keyframe F)}
    (h : checkCurve timebase keyframes = .ok ()) :
    Anchored timebase keyframes ∧
      ∃ first rest, keyframes = first :: rest ∧ first.timing.isFixed = true ∧
        ∀ last ∈ keyframes.getLast?, last.timing.isFixed = true := by
  unfold checkCurve at h
  split at h
  · cases h
  · next first rest =>
      obtain ⟨_, hlength, h⟩ := bind_eq_ok.1 h
      obtain ⟨_, hends, h⟩ := bind_eq_ok.1 h
      obtain ⟨hclock, hincreasing⟩ := checkKeyframes_eq_ok h
      obtain ⟨hfirst, hlast⟩ := not_or.1 (rejectIf_eq_ok.1 hends)
      have hcount := Nat.not_lt.1 (rejectIf_eq_ok.1 hlength)
      refine ⟨⟨hclock, hincreasing, ?_⟩, first, rest, rfl, by simpa using hfirst, ?_⟩
      · refine le_trans (Int.ofNat_le.2 hcount) ?_
        decide
      · intro last hmem
        rw [List.getLast?_eq_some_getLast (List.cons_ne_nil first rest)] at hmem
        cases hmem
        simpa using hlast

namespace AnimationCurve

theorem new_eq_ok {timebase : Timebase} {keyframes : List (Keyframe F)} {expression : Option E}
    {curve : AnimationCurve E arithmetic}
    (h : (AnimationCurve.new arithmetic timebase keyframes expression).run = some (.ok curve)) :
    curve.timebase = timebase ∧ curve.keyframes = keyframes ∧ curve.expression = expression := by
  unfold AnimationCurve.new at h
  split at h
  · cases h
  · split at h
    · cases h
    · cases h
    · cases h
      exact ⟨rfl, rfl, rfl⟩

/-- Authored state that is checked and resolved makes a curve. -/
theorem exists_new {timebase : Timebase} {keyframes : List (Keyframe F)} {times : List RationalTime}
    (expression : Option E) (hchecked : checkCurve timebase keyframes = .ok ())
    (hresolved : (resolveRovingTimes arithmetic keyframes).run = some (.ok times)) :
    ∃ curve : AnimationCurve E arithmetic,
      (AnimationCurve.new arithmetic timebase keyframes expression).run = some (.ok curve) ∧
        curve.resolvedTimes = times := by
  unfold AnimationCurve.new
  split
  · next hrefused =>
      rw [hchecked] at hrefused
      cases hrefused
  · split
    · next hnone =>
        rw [hresolved] at hnone
        cases hnone
    · next herror =>
        rw [hresolved] at herror
        cases herror
    · next hok =>
        rw [hresolved] at hok
        cases hok
        exact ⟨_, rfl, rfl⟩

/-- No clamp of a construction panics. -/
theorem new_defined {timebase : Timebase} {keyframes : List (Keyframe F)} {expression : Option E} :
    (AnimationCurve.new arithmetic timebase keyframes expression).run ≠ none := by
  unfold AnimationCurve.new
  split
  · exact Option.some_ne_none _
  · next hchecked =>
      have hdefined := (resolveRovingTimes_resolves arithmetic
        (checkCurve_eq_ok hchecked).1).defined
      split
      · next hnone => exact absurd hnone hdefined
      · exact Option.some_ne_none _
      · exact Option.some_ne_none _

end AnimationCurve

end Effects
end Superi

import Mathlib
import Superi.Effects.KeyframeLaws

/-!
# KeyframeRetime — moving a curve to new endpoints

The fixed keys go through the affine map of the endpoints, the others are placed anew.  The map back
divides by what the map forth has multiplied with, so it is exact wherever the map forth was.
-/

namespace Superi
namespace Effects

open Core Result

variable {F E : Type} {arithmetic : Arithmetic F}

/-! ## What the times depend on -/

/-- A keyframe without what has no part in its placement. -/
def Keyframe.strip (keyframe : Keyframe F) : Keyframe F where
  timing := keyframe.timing
  value := keyframe.value
  outgoing := .linear
  easing := .linear
  incomingTangent := none
  outgoingTangent := none
  sameWidth := fun _ hmem => by (cases hmem)

theorem Keyframe.strip_congr {keyframe other : Keyframe F} (htiming : keyframe.timing = other.timing)
    (hvalue : keyframe.value = other.value) : keyframe.strip = other.strip := by
  unfold Keyframe.strip
  simp only [htiming, hvalue]

theorem spanWeights_strip (keyframes : List (Keyframe F)) :
    spanWeights arithmetic (keyframes.map Keyframe.strip) = spanWeights arithmetic keyframes := by
  induction keyframes with
  | nil => rfl
  | cons left rest ih =>
      cases rest with
      | nil => rfl
      | cons right rest =>
          rw [List.map_cons] at ih
          rw [List.map_cons, List.map_cons, spanWeights, spanWeights, ih]
          rfl

variable (arithmetic) in
theorem resolveSpan_strip (keyframes : List (Keyframe F)) (start stop : RationalTime) :
    resolveSpan arithmetic (keyframes.map Keyframe.strip) start stop =
      resolveSpan arithmetic keyframes start stop := by
  simp only [resolveSpan, allocateRovingSpan, List.length_map, spanWeights_strip]

theorem isFixed_strip {keyframes : List (Keyframe F)}
    (hroving : ∀ keyframe ∈ keyframes, keyframe.timing.isFixed = false) :
    ∀ keyframe ∈ keyframes.map Keyframe.strip, keyframe.timing.isFixed = false := by
  intro keyframe hkeyframe
  obtain ⟨original, horiginal, rfl⟩ := List.mem_map.1 hkeyframe
  exact hroving original horiginal

theorem resolveRovingTimes_strip (keyframes : List (Keyframe F)) :
    resolveRovingTimes arithmetic (keyframes.map Keyframe.strip) =
      resolveRovingTimes arithmetic keyframes := by
  induction resolving keyframes with
  | nil => rfl
  | @roving left rest hleft =>
      have hleft' : left.strip.timing = .roving := hleft
      rw [List.map_cons, resolveRovingTimes_roving hleft, resolveRovingTimes_roving hleft']
  | @last left leftTime hleft =>
      have hleft' : left.strip.timing = .fixed leftTime := hleft
      rw [List.map_cons, List.map_nil, resolveRovingTimes_last hleft, resolveRovingTimes_last hleft']
  | @unanchored left rest leftTime hleft hrest hroving =>
      have hleft' : left.strip.timing = .fixed leftTime := hleft
      rw [List.map_cons, resolveRovingTimes_unanchored hleft hrest hroving,
        resolveRovingTimes_unanchored hleft' (mt List.map_eq_nil_iff.1 hrest) (isFixed_strip hroving)]
  | @span left right between after leftTime rightTime hleft hright hroving _ ih =>
      have hleft' : left.strip.timing = .fixed leftTime := hleft
      have hright' : right.strip.timing = .fixed rightTime := hright
      have hspan := resolveSpan_strip arithmetic (left :: between ++ [right])
        leftTime rightTime
      rw [List.map_append, List.map_cons] at hspan
      rw [List.map_cons] at ih
      rw [List.map_cons, List.map_append, List.map_cons,
        resolveRovingTimes_span hleft hright hroving,
        resolveRovingTimes_span hleft' hright' (isFixed_strip hroving), ih, ← hspan]
      rfl

theorem checkKeyframes_strip (timebase : Timebase) (componentCount : Nat) (previous : Option Int)
    (keyframes : List (Keyframe F)) :
    checkKeyframes timebase componentCount previous (keyframes.map Keyframe.strip) =
      checkKeyframes timebase componentCount previous keyframes := by
  induction keyframes generalizing previous with
  | nil => rfl
  | cons keyframe rest ih =>
      rw [List.map_cons, checkKeyframes, checkKeyframes]
      simp only [Keyframe.strip, ih]
      by_cases hwidth : keyframe.value.components.length ≠ componentCount
      · simp [rejectIf, hwidth, bind, Except.bind]
      · -- a keyframe keeps its tangents as wide as its value
        have hsame : ([keyframe.incomingTangent, keyframe.outgoingTangent].reduceOption.any
            fun tangent => tangent.components.length != componentCount) = false := by
          rw [List.any_eq_false]
          intro tangent htangent
          rw [keyframe.sameWidth tangent htangent, not_not.1 hwidth]
          simp
        rw [hsame]
        rfl

theorem checkCurve_strip (timebase : Timebase) (keyframes : List (Keyframe F)) :
    checkCurve timebase (keyframes.map Keyframe.strip) = checkCurve timebase keyframes := by
  cases keyframes with
  | nil => rfl
  | cons first rest =>
      have hlast : ((first.strip :: rest.map Keyframe.strip).getLast (List.cons_ne_nil _ _)).timing =
          ((first :: rest).getLast (List.cons_ne_nil _ _)).timing := by
        have hmap := List.getLast_map (f := Keyframe.strip) (l := first :: rest)
          (List.cons_ne_nil _ _)
        exact (congrArg Keyframe.timing hmap :)
      have hkeys := checkKeyframes_strip timebase first.value.components.length none (first :: rest)
      rw [List.map_cons] at hkeys
      simp only [List.map_cons, checkCurve, List.length_cons, List.length_map, hlast]
      rw [← hkeys]
      rfl

/-! ## One key -/

theorem sub128_eq {left right : Int} (hleft : InI64 left) (hright : InI64 right) :
    sub128 left right = pure (left - right) := by
  rw [inI64_iff] at hleft hright
  exact narrow_eq (inI128_iff.2 ⟨by omega, by omega⟩)

theorem div128_eq_ok {left right quotient : Int}
    (h : (div128 left right).run = some (.ok quotient)) :
    right ≠ 0 ∧ quotient = left.tdiv right := by
  unfold div128 at h
  split at h
  · cases h
  · next hzero => exact ⟨hzero, (narrow_eq_ok h).2⟩

theorem tryFrom_eq_ok {value : Int} {timebase : Timebase} {error : Error} {time : RationalTime}
    (h : RationalTime.tryFrom value timebase error = .ok time) :
    time.value = value ∧ time.timebase = timebase := by
  unfold RationalTime.tryFrom at h
  split at h
  · cases h
    exact ⟨rfl, rfl⟩
  · cases h

/-- A retimed coordinate lies on the line through the old and the new endpoints. -/
theorem retimeFixed_eq_ok {oldStart oldSpan newStart newSpan : Int} {timebase : Timebase}
    {time mapped : RationalTime}
    (h : (retimeFixed oldStart oldSpan newStart newSpan timebase time).run = some (.ok mapped)) :
    mapped.timebase = timebase ∧
      (mapped.value - newStart) * oldSpan = (time.value - oldStart) * newSpan ∧
      InI128 ((time.value - oldStart) * newSpan) := by
  obtain ⟨offset, hoffset, h₁⟩ := Machine.run_bind_eq_ok.1 h
  obtain ⟨numerator, hnumerator, h₂⟩ := Machine.run_bind_eq_ok.1 h₁
  obtain ⟨remainder, hremainder, h₃⟩ := Machine.run_bind_eq_ok.1 h₂
  obtain ⟨_, hexact, h₄⟩ := Machine.run_bind_eq_ok.1 h₃
  obtain ⟨quotient, hquotient, h₅⟩ := Machine.run_bind_eq_ok.1 h₄
  obtain ⟨sum, hsum, hmapped⟩ := Machine.run_bind_eq_ok.1 h₅
  have hchecked := okOr_eq_ok.1 (Machine.run_lift_eq_ok.1 hnumerator)
  have hproduct := checkedI128_eq_some hchecked
  obtain rfl := (narrow_eq_ok hoffset).2
  obtain ⟨hzero, rfl⟩ := div128_eq_ok hquotient
  obtain ⟨_, -, hremainder⟩ := Machine.run_bind_eq_ok.1 hremainder
  cases hremainder
  have hrest : numerator.tmod oldSpan = 0 :=
    not_not.1 (rejectIf_eq_ok.1 (Machine.run_lift_eq_ok.1 hexact))
  obtain ⟨hvalue, htimebase⟩ := tryFrom_eq_ok (Machine.run_lift_eq_ok.1 hmapped)
  obtain rfl := (narrow_eq_ok hsum).2
  have hdivides : numerator.tdiv oldSpan * oldSpan = numerator :=
    Int.tdiv_mul_cancel (Int.dvd_of_tmod_eq_zero hrest)
  refine ⟨htimebase, ?_, ?_⟩
  · rw [hvalue, add_sub_cancel_left, hdivides, hproduct]
  · rw [← hproduct]
    exact inI128_of_checkedI128 hchecked

/-- A coordinate on the line is found from the other end, with the same product. -/
theorem retimeFixed_back {oldStart oldSpan newStart newSpan : Int} {time mapped : RationalTime}
    (hnewStart : InI64 newStart) (hnewSpan : 0 < newSpan)
    (hline : (mapped.value - newStart) * oldSpan = (time.value - oldStart) * newSpan)
    (hfits : InI128 ((time.value - oldStart) * newSpan)) :
    (retimeFixed newStart newSpan oldStart oldSpan time.timebase mapped).run = some (.ok time) := by
  have hmod : ((time.value - oldStart) * newSpan).tmod newSpan = 0 := Int.mul_tmod_left _ _
  have hdiv : ((time.value - oldStart) * newSpan).tdiv newSpan = time.value - oldStart :=
    Int.mul_tdiv_cancel _ hnewSpan.ne'
  have hsum : oldStart + (time.value - oldStart) = time.value := by omega
  unfold retimeFixed
  rw [sub128_eq mapped.inRange hnewStart, pure_bind, hline, checkedI128_eq hfits]
  simp only [okOr, Machine.lift_ok, pure_bind, rem128_eq hfits hnewSpan, div128_eq hfits hnewSpan,
    hmod, hdiv, rejectIf]
  rw [if_neg (not_not.2 rfl), Machine.lift_ok, pure_bind, add128, hsum,
    narrow_eq (inI128_of_inI64 time.inRange), pure_bind, RationalTime.tryFrom, dif_pos time.inRange]
  rfl

/-! ## All keys -/

/-- The line through two pairs of endpoints, for authored placements. -/
def Moves (oldStart oldSpan newStart newSpan : Int) : KeyframeTiming → KeyframeTiming → Prop
  | .fixed time, .fixed mapped =>
      (mapped.value - newStart) * oldSpan = (time.value - oldStart) * newSpan
  | .roving, .roving => True
  | _, _ => False

/-- What retiming one key does. -/
structure RetimesKey (oldStart oldSpan newStart newSpan : Int) (timebase : Timebase)
    (keyframe next : Keyframe F) : Prop where
  timing : Moves oldStart oldSpan newStart newSpan keyframe.timing next.timing
  clock : ∀ time, next.timing = .fixed time → time.timebase = timebase
  fits : ∀ time, keyframe.timing = .fixed time → InI128 ((time.value - oldStart) * newSpan)
  value : next.value = keyframe.value

theorem Keyframe.new_eq_ok {timing : KeyframeTiming} {value : AnimationValue F}
    {outgoing : Interpolation} {easing : Easing F}
    {incomingTangent outgoingTangent : Option (ValueTangent F)} {keyframe : Keyframe F}
    (h : Keyframe.new timing value outgoing easing incomingTangent outgoingTangent = .ok keyframe) :
    keyframe.timing = timing ∧ keyframe.value = value := by
  unfold Keyframe.new at h
  split at h
  · cases h
    exact ⟨rfl, rfl⟩
  · cases h

theorem retimeKeyframe_eq_ok {oldStart oldSpan newStart newSpan : Int} {timebase : Timebase}
    {keyframe next : Keyframe F}
    (h : (retimeKeyframe arithmetic oldStart oldSpan newStart newSpan timebase keyframe).run =
      some (.ok next)) : RetimesKey oldStart oldSpan newStart newSpan timebase keyframe next := by
  obtain ⟨timing, htiming, h₁⟩ := Machine.run_bind_eq_ok.1 h
  obtain ⟨incoming, -, h₂⟩ := Machine.run_bind_eq_ok.1 h₁
  obtain ⟨outgoing, -, h₃⟩ := Machine.run_bind_eq_ok.1 h₂
  obtain ⟨hnext, hvalue⟩ := Keyframe.new_eq_ok (Machine.run_lift_eq_ok.1 h₃)
  cases hkey : keyframe.timing with
  | roving =>
      rw [hkey] at htiming
      cases htiming
      refine ⟨?_, ?_, ?_, hvalue⟩
      · rw [hkey, hnext]
        trivial
      · rw [hnext]
        rintro time ⟨⟩
      · rw [hkey]
        rintro time ⟨⟩
  | fixed time =>
      rw [hkey] at htiming
      obtain ⟨mapped, hmapped, heq⟩ := Machine.run_bind_eq_ok.1 htiming
      cases heq
      obtain ⟨hclock, hline, hfits⟩ := retimeFixed_eq_ok hmapped
      refine ⟨?_, ?_, ?_, hvalue⟩
      · rw [hkey, hnext]
        exact hline
      · rw [hnext]
        rintro other ⟨⟩
        exact hclock
      · rw [hkey]
        rintro other ⟨⟩
        exact hfits

/-- What scaling the tangents of a keyframe needs. -/
def Scales (arithmetic : Arithmetic F) (factor : F) (keyframe : Keyframe F) : Prop :=
  ∀ tangent ∈ [keyframe.incomingTangent, keyframe.outgoingTangent].reduceOption,
    ∃ scaled, tangent.scaled arithmetic factor = .ok scaled

theorem scaled_length {tangent scaled : ValueTangent F} {factor : F}
    (h : tangent.scaled arithmetic factor = .ok scaled) :
    scaled.components.length = tangent.components.length := by
  obtain ⟨-, -, heq⟩ := bind_eq_ok.1 h
  cases heq
  exact List.length_map _

/-- Scaling keeps a tangent as wide as it was. -/
theorem scaleTangent_eq {factor : F} {tangent : Option (ValueTangent F)} {width : Nat}
    (hscales : ∀ value ∈ tangent, ∃ scaled, value.scaled arithmetic factor = .ok scaled)
    (hwidth : ∀ value ∈ tangent, value.components.length = width) :
    ∃ scaled, scaleTangent arithmetic factor tangent = .ok scaled ∧
      ∀ value ∈ scaled, value.components.length = width := by
  cases tangent with
  | none => exact ⟨none, rfl, fun _ hmem => by (cases hmem)⟩
  | some tangent =>
      obtain ⟨scaled, hscaled⟩ := hscales tangent rfl
      refine ⟨some scaled, ?_, ?_⟩
      · simp only [scaleTangent, Option.mapM_some, hscaled]
        rfl
      · rintro value ⟨⟩
        rw [scaled_length hscaled]
        exact hwidth tangent rfl

/-- A key whose tangents scale goes back to where it was. -/
theorem retimeKeyframe_back {oldStart oldSpan newStart newSpan : Int} {timebase : Timebase}
    {keyframe next : Keyframe F}
    (h : RetimesKey oldStart oldSpan newStart newSpan timebase keyframe next)
    (hclock : ∀ time, keyframe.timing = .fixed time → time.timebase = timebase)
    (hnewStart : InI64 newStart) (hnewSpan : 0 < newSpan)
    (hscales : Scales arithmetic (arithmetic.fraction newSpan oldSpan) next) :
    ∃ back, (retimeKeyframe arithmetic newStart newSpan oldStart oldSpan timebase next).run =
      some (.ok back) ∧ back.timing = keyframe.timing ∧ back.value = keyframe.value := by
  have htiming : (retimeTiming newStart newSpan oldStart oldSpan timebase next.timing).run =
      some (.ok keyframe.timing) := by
    have hmoves := h.timing
    cases hkey : keyframe.timing with
    | roving =>
        cases hnext : next.timing with
        | roving => rfl
        | fixed mapped =>
            rw [hkey, hnext] at hmoves
            exact hmoves.elim
    | fixed time =>
        cases hnext : next.timing with
        | roving =>
            rw [hkey, hnext] at hmoves
            exact hmoves.elim
        | fixed mapped =>
            rw [hkey, hnext] at hmoves
            have hback := retimeFixed_back hnewStart hnewSpan hmoves (h.fits time hkey)
            rw [hclock time hkey] at hback
            exact Machine.run_bind_eq_ok.2 ⟨time, hback, rfl⟩
  have hincoming : ∀ value ∈ next.incomingTangent,
      value ∈ [next.incomingTangent, next.outgoingTangent].reduceOption :=
    fun value hvalue => List.reduceOption_mem_iff.2 (hvalue ▸ List.mem_cons_self)
  have houtgoing : ∀ value ∈ next.outgoingTangent,
      value ∈ [next.incomingTangent, next.outgoingTangent].reduceOption :=
    fun value hvalue => List.reduceOption_mem_iff.2
      (hvalue ▸ List.mem_cons_of_mem _ List.mem_cons_self)
  obtain ⟨incoming, hin, hinWidth⟩ := scaleTangent_eq
    (fun value hvalue => hscales value (hincoming value hvalue))
    fun value hvalue => next.sameWidth value (hincoming value hvalue)
  obtain ⟨outgoing, hout, houtWidth⟩ := scaleTangent_eq
    (fun value hvalue => hscales value (houtgoing value hvalue))
    fun value hvalue => next.sameWidth value (houtgoing value hvalue)
  have hwidth : ∀ tangent ∈ [incoming, outgoing].reduceOption,
      tangent.components.length = next.value.components.length := by
    intro tangent htangent
    rcases List.mem_cons.1 (List.reduceOption_mem_iff.1 htangent) with hfirst | hsecond
    · exact hinWidth tangent hfirst.symm
    · exact houtWidth tangent (List.mem_singleton.1 hsecond).symm
  refine ⟨⟨keyframe.timing, next.value, next.outgoing, next.easing, incoming, outgoing, hwidth⟩, ?_,
    rfl, h.value⟩
  refine Machine.run_bind_eq_ok.2 ⟨_, htiming, Machine.run_bind_eq_ok.2 ⟨incoming, ?_,
    Machine.run_bind_eq_ok.2 ⟨outgoing, ?_, ?_⟩⟩⟩
  · rw [hin]
    rfl
  · rw [hout]
    rfl
  · rw [Keyframe.new, dif_pos hwidth]
    rfl

/-! ## Endpoints -/

theorem forall₂_head? {α β : Type} {R : α → β → Prop} {xs : List α} {ys : List β} {x : α}
    (h : List.Forall₂ R xs ys) (hx : xs.head? = some x) : ∃ y, ys.head? = some y ∧ R x y := by
  cases h with
  | nil => cases hx
  | cons hfirst _ =>
      cases hx
      exact ⟨_, rfl, hfirst⟩

theorem forall₂_getLast? {α β : Type} {R : α → β → Prop} {xs : List α} {ys : List β} {x : α}
    (h : List.Forall₂ R xs ys) (hx : xs.getLast? = some x) : ∃ y, ys.getLast? = some y ∧ R x y := by
  rw [← List.head?_reverse] at hx
  obtain ⟨y, hy, hxy⟩ := forall₂_head? (List.rel_reverse h) hx
  exact ⟨y, by rw [← List.head?_reverse, hy], hxy⟩

theorem rationalTime_ext {left right : RationalTime} (hvalue : left.value = right.value)
    (htimebase : left.timebase = right.timebase) : left = right := by
  cases left
  cases right
  cases hvalue
  cases htimebase
  rfl

namespace AnimationCurve

theorem anchored (curve : AnimationCurve E arithmetic) : Anchored curve.timebase curve.keyframes :=
  (checkCurve_eq_ok curve.checked).1

theorem resolves (curve : AnimationCurve E arithmetic) :
    Resolves curve.timebase curve.keyframes (resolveRovingTimes arithmetic curve.keyframes) :=
  resolveRovingTimes_resolves arithmetic curve.anchored

theorem keeps (curve : AnimationCurve E arithmetic) :
    List.Forall₂ Keeps curve.keyframes curve.resolvedTimes :=
  curve.resolves.keeps _ curve.resolved

theorem increasing (curve : AnimationCurve E arithmetic) :
    Increasing (curve.resolvedTimes.map RationalTime.value) :=
  curve.resolves.increasing _ curve.resolved

theorem clock (curve : AnimationCurve E arithmetic) {keyframe : Keyframe F} {time : RationalTime}
    (hkeyframe : keyframe ∈ curve.keyframes) (htiming : keyframe.timing = .fixed time) :
    time.timebase = curve.timebase := by
  refine curve.anchored.clock time (List.mem_filterMap.2 ⟨keyframe, hkeyframe, ?_⟩)
  rw [htiming]
  rfl

/-- The first and the last key, which are fixed. -/
structure Ends (curve : AnimationCurve E arithmetic) (first last : RationalTime) : Prop where
  headTime : curve.resolvedTimes.head? = some first
  lastTime : curve.resolvedTimes.getLast? = some last
  headKey : ∃ keyframe, curve.keyframes.head? = some keyframe ∧ keyframe.timing = .fixed first
  lastKey : ∃ keyframe, curve.keyframes.getLast? = some keyframe ∧ keyframe.timing = .fixed last

/-- Fixed keys at the ends have their times at the ends. -/
theorem Ends.of_keys (curve : AnimationCurve E arithmetic) {first last : RationalTime}
    (hhead : ∃ keyframe, curve.keyframes.head? = some keyframe ∧ keyframe.timing = .fixed first)
    (hlast : ∃ keyframe, curve.keyframes.getLast? = some keyframe ∧
      keyframe.timing = .fixed last) : curve.Ends first last := by
  obtain ⟨firstKey, hfirstKey, hfirst⟩ := hhead
  obtain ⟨lastKey, hlastKey, hlast⟩ := hlast
  obtain ⟨time, htime, hkeep⟩ := forall₂_head? curve.keeps hfirstKey
  obtain ⟨time', htime', hkeep'⟩ := forall₂_getLast? curve.keeps hlastKey
  exact ⟨htime.trans (congrArg some (hkeep first hfirst)),
    htime'.trans (congrArg some (hkeep' last hlast)), ⟨firstKey, hfirstKey, hfirst⟩,
    ⟨lastKey, hlastKey, hlast⟩⟩

theorem exists_fixed {keyframe : Keyframe F} (h : keyframe.timing.isFixed = true) :
    ∃ time, keyframe.timing = .fixed time := by
  cases htiming : keyframe.timing with
  | fixed time => exact ⟨time, rfl⟩
  | roving =>
      rw [htiming] at h
      cases h

theorem exists_ends (curve : AnimationCurve E arithmetic) : ∃ first last, curve.Ends first last := by
  obtain ⟨-, head, rest, hkeyframes, hhead, hlast⟩ := checkCurve_eq_ok curve.checked
  obtain ⟨first, hfirst⟩ := exists_fixed hhead
  have hnonempty : curve.keyframes ≠ [] := by
    rw [hkeyframes]
    exact List.cons_ne_nil _ _
  have hgetLast := List.getLast?_eq_some_getLast hnonempty
  obtain ⟨last, hlastTime⟩ := exists_fixed (hlast _ hgetLast)
  refine ⟨first, last, .of_keys curve ⟨head, ?_, hfirst⟩ ⟨_, hgetLast, hlastTime⟩⟩
  rw [hkeyframes]
  rfl

variable {curve next : AnimationCurve E arithmetic} {first last : RationalTime}

theorem Ends.endpoints_eq (h : curve.Ends first last) : curve.endpoints = pure (first, last) := by
  unfold endpoints
  rw [h.headTime, h.lastTime]

theorem Ends.unique (h : curve.Ends first last) {first' last' : RationalTime}
    (h' : curve.Ends first' last') : first' = first ∧ last' = last :=
  ⟨Option.some.inj (h'.headTime.symm.trans h.headTime), Option.some.inj (h'.lastTime.symm.trans h.lastTime)⟩

theorem Ends.timebase (h : curve.Ends first last) :
    first.timebase = curve.timebase ∧ last.timebase = curve.timebase := by
  obtain ⟨firstKey, hfirstKey, hfirst⟩ := h.headKey
  obtain ⟨lastKey, hlastKey, hlast⟩ := h.lastKey
  exact ⟨curve.clock (List.mem_of_mem_head? hfirstKey) hfirst,
    curve.clock (List.mem_of_getLast? hlastKey) hlast⟩

/-- A curve of two keys or more takes some time. -/
theorem Ends.before (h : curve.Ends first last) (hlength : ¬ curve.keyframes.length < 2) :
    first.value < last.value := by
  have hincreasing := curve.increasing
  have hcount := curve.keeps.length_eq
  have hhead := h.headTime
  have hlast := h.lastTime
  cases htimes : curve.resolvedTimes with
  | nil =>
      rw [htimes] at hhead
      cases hhead
  | cons time rest =>
      rw [htimes] at hhead hlast hincreasing hcount
      cases hhead
      rw [List.map_cons] at hincreasing
      have hrest : rest ≠ [] := by
        rintro rfl
        rw [List.length_singleton] at hcount
        omega
      rw [List.getLast?_cons_of_ne_nil hrest] at hlast
      exact (List.pairwise_cons.1 hincreasing).1 last.value
        (List.mem_map_of_mem (List.mem_of_getLast? hlast))

/-! ## Whole curves -/

theorem rescaleRetimeEndpoint_eq_ok {time rescaled : RationalTime} {timebase : Timebase}
    (h : rescaleRetimeEndpoint time timebase = .ok rescaled) :
    rescaled.seconds = time.seconds ∧ rescaled.timebase = timebase :=
  RationalTime.checkedRescale_spec (mapError_eq_ok.1 h)

theorem rescaleRetimeEndpoint_self (time : RationalTime) :
    rescaleRetimeEndpoint time time.timebase = .ok time := by
  rw [rescaleRetimeEndpoint, RationalTime.checkedRescale, if_pos rfl]
  rfl

/-- What a retiming does: the endpoints go where they were asked to, and every key with them. -/
structure Retimes (curve next : AnimationCurve E arithmetic) (first last start stop : RationalTime) :
    Prop where
  long : ¬ curve.keyframes.length < 2
  oldEnds : curve.Ends first last
  newEnds : next.Ends start stop
  before : start.value < stop.value
  timebase : next.timebase = curve.timebase
  keys : List.Forall₂ (RetimesKey first.value (last.value - first.value) start.value
    (stop.value - start.value) curve.timebase) curve.keyframes next.keyframes

/-- A fixed key that the line sends to a coordinate is there. -/
theorem fixed_of_line {oldStart oldSpan newStart newSpan : Int} {keyframe key : Keyframe F}
    {time target : RationalTime}
    (h : RetimesKey oldStart oldSpan newStart newSpan target.timebase keyframe key)
    (htime : keyframe.timing = .fixed time) (hspan : 0 < oldSpan)
    (hline : (target.value - newStart) * oldSpan = (time.value - oldStart) * newSpan) :
    key.timing = .fixed target := by
  have hmoves := h.timing
  cases hkey : key.timing with
  | roving =>
      rw [htime, hkey] at hmoves
      exact hmoves.elim
  | fixed mapped =>
      rw [htime, hkey] at hmoves
      have hsame : mapped.value - newStart = target.value - newStart :=
        Int.eq_of_mul_eq_mul_right hspan.ne' (Eq.trans hmoves hline.symm)
      have hvalue : mapped.value = target.value := by omega
      rw [rationalTime_ext hvalue (h.clock mapped hkey)]

theorem retimed_eq_ok {newStart newEnd : RationalTime}
    (h : (curve.retimed newStart newEnd).run = some (.ok next)) :
    ∃ first last start stop, Retimes curve next first last start stop ∧
      start.seconds = newStart.seconds ∧ stop.seconds = newEnd.seconds := by
  obtain ⟨first, last, hends⟩ := curve.exists_ends
  obtain ⟨_, hlong, h₁⟩ := Machine.run_bind_eq_ok.1 h
  obtain ⟨start, hstart, h₂⟩ := Machine.run_bind_eq_ok.1 h₁
  obtain ⟨stop, hstop, h₃⟩ := Machine.run_bind_eq_ok.1 h₂
  obtain ⟨_, horder, h₄⟩ := Machine.run_bind_eq_ok.1 h₃
  rw [hends.endpoints_eq, pure_bind] at h₄
  simp only [sub128_eq last.inRange first.inRange, sub128_eq stop.inRange start.inRange,
    pure_bind] at h₄
  obtain ⟨keyframes, hkeyframes, hnew⟩ := Machine.run_bind_eq_ok.1 h₄
  obtain ⟨htimebase, hsame, -⟩ := new_eq_ok hnew
  have hlength : ¬ curve.keyframes.length < 2 := rejectIf_eq_ok.1 (Machine.run_lift_eq_ok.1 hlong)
  have hbefore : start.value < stop.value :=
    Int.not_le.1 (rejectIf_eq_ok.1 (Machine.run_lift_eq_ok.1 horder))
  obtain ⟨hstartSeconds, hstartTimebase⟩ :=
    rescaleRetimeEndpoint_eq_ok (Machine.run_lift_eq_ok.1 hstart)
  obtain ⟨hstopSeconds, hstopTimebase⟩ :=
    rescaleRetimeEndpoint_eq_ok (Machine.run_lift_eq_ok.1 hstop)
  have hkeys : List.Forall₂ (RetimesKey first.value (last.value - first.value) start.value
      (stop.value - start.value) curve.timebase) curve.keyframes next.keyframes := by
    rw [hsame]
    exact (Machine.run_mapM_eq_ok.1 hkeyframes).imp fun _ _ hkey => retimeKeyframe_eq_ok hkey
  have hspan : 0 < last.value - first.value := Int.sub_pos.2 (hends.before hlength)
  -- the line sends the old endpoints to the new ones
  have hnewEnds : next.Ends start stop := by
    obtain ⟨firstKey, hfirstKey, hfirst⟩ := hends.headKey
    obtain ⟨lastKey, hlastKey, hlast⟩ := hends.lastKey
    obtain ⟨key, hkey, hmoves⟩ := forall₂_head? hkeys hfirstKey
    obtain ⟨key', hkey', hmoves'⟩ := forall₂_getLast? hkeys hlastKey
    rw [← hstartTimebase] at hmoves
    rw [← hstopTimebase] at hmoves'
    refine .of_keys next ⟨key, hkey, fixed_of_line hmoves hfirst hspan ?_⟩
      ⟨key', hkey', fixed_of_line hmoves' hlast hspan (mul_comm _ _)⟩
    rw [sub_self, sub_self, zero_mul, zero_mul]
  exact ⟨first, last, start, stop, ⟨hlength, hends, hnewEnds, hbefore, htimebase, hkeys⟩,
    hstartSeconds, hstopSeconds⟩

theorem timing_back {oldStart oldSpan newStart newSpan : Int} {timebase timebase' : Timebase}
    {keyframe key back : Keyframe F} (hspan : 0 < newSpan)
    (hforth : RetimesKey oldStart oldSpan newStart newSpan timebase keyframe key)
    (hback : RetimesKey newStart newSpan oldStart oldSpan timebase' key back)
    (hclock : ∀ time, keyframe.timing = .fixed time → time.timebase = timebase') :
    back.strip = keyframe.strip := by
  refine Keyframe.strip_congr ?_ (hback.value.trans hforth.value)
  have hmoves := hforth.timing
  have hmoves' := hback.timing
  cases hkeyframe : keyframe.timing with
  | roving =>
      cases hkey : key.timing with
      | fixed mapped =>
          rw [hkeyframe, hkey] at hmoves
          exact hmoves.elim
      | roving =>
          cases hfinal : back.timing with
          | roving => rfl
          | fixed time =>
              rw [hkey, hfinal] at hmoves'
              exact hmoves'.elim
  | fixed time =>
      cases hkey : key.timing with
      | roving =>
          rw [hkeyframe, hkey] at hmoves
          exact hmoves.elim
      | fixed mapped =>
          rw [hkeyframe, hkey] at hmoves
          have htimebase := hclock time hkeyframe
          rw [← htimebase] at hback
          exact fixed_of_line hback hkey hspan (Eq.symm hmoves)

theorem mapM_back {oldStart oldSpan newStart newSpan : Int} {timebase : Timebase}
    {keyframes keys : List (Keyframe F)} (hnewStart : InI64 newStart) (hspan : 0 < newSpan)
    (hclock : ∀ keyframe ∈ keyframes, ∀ time, keyframe.timing = .fixed time →
      time.timebase = timebase)
    (h : List.Forall₂ (RetimesKey oldStart oldSpan newStart newSpan timebase) keyframes keys)
    (hscales : ∀ key ∈ keys, Scales arithmetic (arithmetic.fraction newSpan oldSpan) key) :
    ∃ backs, (keys.mapM (retimeKeyframe arithmetic newStart newSpan oldStart oldSpan
        timebase)).run = some (.ok backs) ∧
      backs.map Keyframe.strip = keyframes.map Keyframe.strip := by
  induction h with
  | nil => exact ⟨[], rfl, rfl⟩
  | @cons keyframe key keyframes keys hkey _ ih =>
      obtain ⟨back, hback, htiming, hvalue⟩ := retimeKeyframe_back hkey
        (hclock keyframe List.mem_cons_self) hnewStart hspan (hscales key List.mem_cons_self)
      obtain ⟨backs, hbacks, hstrip⟩ :=
        ih (fun other hother => hclock other (List.mem_cons_of_mem _ hother))
          fun other hother => hscales other (List.mem_cons_of_mem _ hother)
      refine ⟨back :: backs, ?_, ?_⟩
      · exact Machine.run_mapM_eq_ok.2 (.cons hback (Machine.run_mapM_eq_ok.1 hbacks))
      · rw [List.map_cons, List.map_cons, hstrip, Keyframe.strip_congr htiming hvalue]

/-- Retiming back to the original endpoints restores the authored placements, and so the times. -/
theorem Retimes.restores {first last start stop : RationalTime}
    (h : Retimes curve next first last start stop) {back : AnimationCurve E arithmetic}
    (hback : (next.retimed first last).run = some (.ok back)) :
    back.keyframes.map Keyframe.strip = curve.keyframes.map Keyframe.strip ∧
      back.resolvedTimes = curve.resolvedTimes := by
  obtain ⟨start', stop', first', last', hretimes, hfirst, hlast⟩ := retimed_eq_ok hback
  obtain ⟨hstart, hstop⟩ := h.newEnds.unique hretimes.oldEnds
  have htimebase : back.timebase = curve.timebase := hretimes.timebase.trans h.timebase
  have hfirst' : first' = first := RationalTime.ext_of_seconds
    (hretimes.newEnds.timebase.1.trans (htimebase.trans h.oldEnds.timebase.1.symm)) hfirst
  have hlast' : last' = last := RationalTime.ext_of_seconds
    (hretimes.newEnds.timebase.2.trans (htimebase.trans h.oldEnds.timebase.2.symm)) hlast
  have hspan : 0 < stop.value - start.value := Int.sub_pos.2 h.before
  have hclocked : List.Forall₂ (fun keyframe key =>
      (∀ time, keyframe.timing = .fixed time → time.timebase = curve.timebase) ∧
        RetimesKey first.value (last.value - first.value) start.value (stop.value - start.value)
          curve.timebase keyframe key) curve.keyframes next.keyframes :=
    (List.forall₂_and_left _ _).2 ⟨fun _ hkeyframe _ htiming => curve.clock hkeyframe htiming, h.keys⟩
  have hback' := hretimes.keys
  rw [h.timebase, hstart, hstop, hfirst', hlast'] at hback'
  have hstrip : back.keyframes.map Keyframe.strip = curve.keyframes.map Keyframe.strip :=
    Sequence.map_eq_of_forall₂ ((Sequence.forall₂_trans hclocked hback').imp
      fun keyframe key ⟨middle, ⟨hclock, hforth⟩, hkey⟩ => timing_back hspan hforth hkey hclock)
  refine ⟨hstrip, ?_⟩
  have hresolved := back.resolved
  rw [← resolveRovingTimes_strip, hstrip, resolveRovingTimes_strip, curve.resolved] at hresolved
  exact (Except.ok.inj (Option.some.inj hresolved)).symm

/-- It succeeds wherever the tangents can be scaled back. -/
theorem Retimes.exists_back {first last start stop : RationalTime}
    (h : Retimes curve next first last start stop)
    (hscales : ∀ keyframe ∈ next.keyframes, Scales arithmetic
      (arithmetic.fraction (stop.value - start.value) (last.value - first.value)) keyframe) :
    ∃ back, (next.retimed first last).run = some (.ok back) := by
  have hspan : 0 < stop.value - start.value := Int.sub_pos.2 h.before
  have hlength : ¬ next.keyframes.length < 2 := by
    rw [← h.keys.length_eq]
    exact h.long
  have hbefore : ¬ last.value ≤ first.value := Int.not_le.2 (h.oldEnds.before h.long)
  have hfirst : rescaleRetimeEndpoint first next.timebase = .ok first := by
    rw [h.timebase, ← h.oldEnds.timebase.1]
    exact rescaleRetimeEndpoint_self first
  have hlast : rescaleRetimeEndpoint last next.timebase = .ok last := by
    rw [h.timebase, ← h.oldEnds.timebase.2]
    exact rescaleRetimeEndpoint_self last
  -- every key goes back
  obtain ⟨keyframes, hkeyframes, hstrip⟩ : ∃ keyframes, (next.keyframes.mapM (retimeKeyframe arithmetic
      start.value (stop.value - start.value) first.value (last.value - first.value)
      next.timebase)).run = some (.ok keyframes) ∧
      keyframes.map Keyframe.strip = curve.keyframes.map Keyframe.strip := by
    rw [h.timebase]
    exact mapM_back start.inRange hspan (fun keyframe hkeyframe time htiming =>
      curve.clock hkeyframe htiming) h.keys hscales
  have hchecked : checkCurve next.timebase keyframes = .ok () := by
    rw [h.timebase, ← checkCurve_strip, hstrip, checkCurve_strip]
    exact curve.checked
  have hresolved : (resolveRovingTimes arithmetic keyframes).run =
      some (.ok curve.resolvedTimes) := by
    rw [← resolveRovingTimes_strip, hstrip, resolveRovingTimes_strip]
    exact curve.resolved
  obtain ⟨back, hback, -⟩ := exists_new next.expression hchecked hresolved
  refine ⟨back, ?_⟩
  unfold retimed
  simp only [rejectIf, if_neg hlength, if_neg hbefore, hfirst, hlast, Machine.lift_ok, pure_bind,
    h.newEnds.endpoints_eq, sub128_eq stop.inRange start.inRange,
    sub128_eq last.inRange first.inRange]
  exact Machine.run_bind_eq_ok.2 ⟨keyframes, hkeyframes, hback⟩

/-- Whatever ratios the roving keys are placed by: no construction panics, the times of an accepted
curve increase and the fixed ones are those authored; where every ratio is rounded into its span, no
sum leaves the range.  Retiming takes the keys along the line through the endpoints, and back to
where they were. -/
theorem roving_keyframes_stay_ordered (arithmetic : Arithmetic F) (E : Type) :
    (∀ timebase keyframes (expression : Option E),
      (AnimationCurve.new arithmetic timebase keyframes expression).run ≠ none) ∧
    (∀ timebase keyframes (expression : Option E) curve,
      (AnimationCurve.new arithmetic timebase keyframes expression).run = some (.ok curve) →
        List.Forall₂ Keeps keyframes curve.resolvedTimes ∧
        (∀ time ∈ curve.resolvedTimes, time.timebase = timebase) ∧
        Increasing (curve.resolvedTimes.map RationalTime.value)) ∧
    (RoundsWithin arithmetic → ∀ timebase keyframes, checkCurve timebase keyframes = .ok () →
      (resolveRovingTimes arithmetic keyframes).run ≠ some (.error allocationExceeded)) ∧
    (∀ (curve next : AnimationCurve E arithmetic) newStart newEnd,
      (curve.retimed newStart newEnd).run = some (.ok next) →
        ∃ first last start stop : RationalTime,
          curve.Ends first last ∧ next.Ends start stop ∧ next.timebase = curve.timebase ∧
          start.seconds = newStart.seconds ∧ stop.seconds = newEnd.seconds ∧
          List.Forall₂ (fun keyframe key => Moves first.value (last.value - first.value) start.value
            (stop.value - start.value) keyframe.timing key.timing) curve.keyframes next.keyframes ∧
          (∀ back, (next.retimed first last).run = some (.ok back) →
            back.keyframes.map Keyframe.timing = curve.keyframes.map Keyframe.timing ∧
              back.resolvedTimes = curve.resolvedTimes) ∧
          ((∀ keyframe ∈ next.keyframes, Scales arithmetic
              (arithmetic.fraction (stop.value - start.value) (last.value - first.value)) keyframe) →
            ∃ back, (next.retimed first last).run = some (.ok back))) := by
  refine ⟨fun _ _ _ => new_defined, ?_, ?_, ?_⟩
  · intro timebase keyframes expression curve hcurve
    obtain ⟨rfl, rfl, -⟩ := new_eq_ok hcurve
    exact ⟨curve.keeps, curve.resolves.clock _ curve.resolved, curve.increasing⟩
  · intro hround timebase keyframes hchecked
    exact resolveRovingTimes_ne_exceeded hround (checkCurve_eq_ok hchecked).1
  · intro curve next newStart newEnd hnext
    obtain ⟨first, last, start, stop, hretimes, hstart, hstop⟩ := retimed_eq_ok hnext
    refine ⟨first, last, start, stop, hretimes.oldEnds, hretimes.newEnds, hretimes.timebase, hstart,
      hstop, hretimes.keys.imp fun _ _ hkey => hkey.timing, ?_, hretimes.exists_back⟩
    intro back hback
    obtain ⟨hstrip, htimes⟩ := hretimes.restores hback
    refine ⟨?_, htimes⟩
    have htimings := congrArg (List.map Keyframe.timing) hstrip
    rw [List.map_map, List.map_map] at htimings
    exact htimings

/-! ## A curve over whole numbers -/

/-- Thousandths. -/
def thousandths : Arithmetic Int where
  zero := 0
  add := (· + ·)
  mul left right := left * right / 1000
  div left right := left * 1000 / right
  distance left right := (right - left).natAbs
  isFinite _ := true
  isZero value := value == 0
  fraction numerator denominator := numerator * 1000 / denominator
  roundWithin span ratio := max 0 (min span ((span * ratio + 500) / 1000))

def ticks : Timebase where
  numerator := 1
  denominator := 1
  numerator_pos := Nat.one_pos
  denominator_pos := Nat.one_pos
  numerator_fits := Timebase.one_fits
  denominator_fits := Timebase.one_fits
  reduced := by decide

def tick (value : Int) (inRange : InI64 value) : RationalTime := { value, timebase := ticks, inRange }

def keyAt (timing : KeyframeTiming) (component : Int) : Keyframe Int where
  timing := timing
  value := ⟨[component]⟩
  outgoing := .linear
  easing := .linear
  incomingTangent := none
  outgoingTangent := none
  sameWidth := fun _ hmem => by (cases hmem)

/-- Three roving keys in four ticks, the first two of which would fall together. -/
def crowdedKeys : List (Keyframe Int) :=
  [keyAt (.fixed (tick 0 inI64_zero)) 0, keyAt .roving 1, keyAt .roving 2, keyAt .roving 50,
    keyAt (.fixed (tick 5 inI64_five)) 100]

/-- The times are apart although the ratios are not. -/
theorem roving_keyframes_stay_ordered_crowded :
    ∃ curve : AnimationCurve Unit thousandths,
      (AnimationCurve.new thousandths ticks crowdedKeys none).run = some (.ok curve) ∧
        curve.resolvedTimes.map RationalTime.value = [0, 1, 2, 3, 5] ∧
        Increasing (curve.resolvedTimes.map RationalTime.value) := by
  have hchecked : checkCurve ticks crowdedKeys = .ok () := by decide +kernel
  have hresolved : (resolveRovingTimes thousandths crowdedKeys).run =
      some (.ok [tick 0 (by decide), tick 1 (by decide), tick 2 (by decide), tick 3 (by decide),
        tick 5 (by decide)]) := by decide +kernel
  obtain ⟨curve, hcurve, htimes⟩ := exists_new (none : Option Unit) hchecked hresolved
  refine ⟨curve, hcurve, by rw [htimes]; rfl, ?_⟩
  exact ((roving_keyframes_stay_ordered thousandths Unit).2.1 ticks crowdedKeys none curve
    hcurve).2.2

end AnimationCurve

end Effects
end Superi

import Superi.Timeline.EditRebuild

/-!
# EditCut — the loops that cut a hole into a track

Insert, overwrite, lift and extract walk the timed items once.  `ItemCut` lists what such a walk
can do with one item relative to the hole `[a, b)` and the displacement `shift` of everything
behind it; both loop bodies are instances.  The run lemmas then hold for either loop: the pieces
tile the track with the hole cut out, every instant outside the hole is carried to its new place,
and identities stay distinct.
-/

namespace Superi
namespace Editorial

open Core Result Tiling Sequence

/-! ## One item -/

/-- The pieces of one item before and behind the hole `[a, b)`, and the fragment identity used. -/
inductive ItemCut (a b shift : ℚ) (item : TimedItem) :
    List TimedItem → List TimedItem → Option EditorialObjectId → Prop
  | kept (hhi : item.hi ≤ a) (hlo : item.lo < b ∨ a < b) : ItemCut a b shift item [item] [] none
  | moved {new : TimedItem} (hlo : b ≤ item.lo)
      (piece : Piece item new item.id (item.lo + shift) (item.hi + shift) shift) :
      ItemCut a b shift item [] [new] none
  | split {left right : TimedItem} {fragment : EditorialObjectId} (hlo : item.lo < a)
      (hhi : b < item.hi) (domain : sameTypedDomain item.id fragment = true)
      (leftPiece : Piece item left item.id item.lo a 0)
      (rightPiece : Piece item right fragment (b + shift) (item.hi + shift) shift) :
      ItemCut a b shift item [left] [right] (some fragment)
  | leftOnly {left : TimedItem} (hlo : item.lo < a) (hgt : a < item.hi) (hhi : item.hi ≤ b)
      (piece : Piece item left item.id item.lo a 0) : ItemCut a b shift item [left] [] none
  | rightOnly {right : TimedItem} (hlo : a ≤ item.lo) (hlt : item.lo < b) (hhi : b < item.hi)
      (piece : Piece item right item.id (b + shift) (item.hi + shift) shift) :
      ItemCut a b shift item [] [right] none
  | dropped (hlo : a ≤ item.lo) (hlt : item.lo < b) (hgt : a < item.hi) (hhi : item.hi ≤ b) :
      ItemCut a b shift item [] [] none

/-- An old item and the new item that takes over one of its instants: same identity, or a
reported fragment of it, showing the same thing. -/
structure Continues (fragments : List EditFragment) (old : TimedItem) (instant : ℚ)
    (new : TimedItem) (instant' : ℚ) : Prop where
  covers : Covers TimedItem.lo TimedItem.hi instant' new
  identity : new.id = old.id ∨ ⟨old.id, new.id⟩ ∈ fragments
  payload : new.payload = old.payload
  source : new.sourceAt instant' = old.sourceAt instant

theorem Continues.mono {fragments fragments' : List EditFragment} {old new : TimedItem} {t t' : ℚ}
    (h : Continues fragments old t new t') (hsub : ∀ f ∈ fragments, f ∈ fragments') :
    Continues fragments' old t new t' :=
  ⟨h.covers, h.identity.imp_right (hsub _), h.payload, h.source⟩

theorem Continues.refl {fragments : List EditFragment} {item : TimedItem} {t : ℚ}
    (h : Covers TimedItem.lo TimedItem.hi t item) : Continues fragments item t item t :=
  ⟨h, .inl rfl, rfl, rfl⟩

theorem Piece.continues {old new : TimedItem} {id : EditorialObjectId} {lo hi shift t : ℚ}
    {fragments : List EditFragment} (h : Piece old new id lo hi shift)
    (hid : id = old.id ∨ ⟨old.id, id⟩ ∈ fragments) (hlo : lo ≤ t + shift) (hhi : t + shift < hi) :
    Continues fragments old t new (t + shift) := by
  have hcov := h.covers_iff.2 ⟨hlo, hhi⟩
  refine ⟨hcov, ?_, h.carries.payload, ?_⟩
  · rw [h.id]
    exact hid
  · rw [h.carries.source _ hcov, add_sub_cancel_right]

theorem Piece.keeps {old new : TimedItem} {id : EditorialObjectId} {lo hi t : ℚ}
    {fragments : List EditFragment} (h : Piece old new id lo hi 0)
    (hid : id = old.id ∨ ⟨old.id, id⟩ ∈ fragments) (hlo : lo ≤ t) (hhi : t < hi) :
    Continues fragments old t new t := by
  have := h.continues (t := t) hid (by rwa [add_zero]) (by rwa [add_zero])
  rwa [add_zero] at this

/-- The fragment record of one cut. -/
def fragmentOf (item : TimedItem) (fragment : Option EditorialObjectId) : List EditFragment :=
  fragment.toList.map fun created => ⟨item.id, created⟩

namespace ItemCut

variable {a b shift : ℚ} {item : TimedItem} {before after : List TimedItem}
  {fragment : Option EditorialObjectId}

theorem cut (h : ItemCut a b shift item before after fragment) (hab : a ≤ b) :
    Cut TimedItem.lo TimedItem.hi a b (· + shift) item before after := by
  have hle := item.lo_le_hi
  cases h with
  | kept hhi hlo =>
      refine ⟨?_, ?_, ?_, fun _ => rfl⟩
      · rw [min_eq_left (hle.trans hhi), min_eq_left hhi]
        exact (Piece.refl item).tiles
      · rw [max_eq_right (hle.trans (hhi.trans hab)), max_eq_right (hhi.trans hab)]
        exact rfl
      · intro hb
        rcases hlo with hlo | hlt
        · exact absurd hb (not_le.2 hlo)
        · exact absurd (hb.trans hle) (not_le.2 (lt_of_le_of_lt hhi hlt))
  | moved hlo piece =>
      refine ⟨?_, ?_, fun _ => rfl, fun hhi => absurd (hlo.trans hle) (not_le.2 hhi)⟩
      · rw [min_eq_right (hab.trans hlo), min_eq_right (hab.trans (hlo.trans hle))]
        exact rfl
      · rw [max_eq_left hlo, max_eq_left (hlo.trans hle)]
        exact piece.tiles
  | split hlo hhi _ leftPiece rightPiece =>
      refine ⟨?_, ?_, fun hb => absurd (hab.trans hb) (not_le.2 hlo),
        fun hb => absurd hhi (not_lt.2 hb.le)⟩
      · rw [min_eq_left hlo.le, min_eq_right (hab.trans hhi.le)]
        exact leftPiece.tiles
      · rw [max_eq_right (hlo.le.trans hab), max_eq_left hhi.le]
        exact rightPiece.tiles
  | leftOnly hlo hgt hhi piece =>
      refine ⟨?_, ?_, fun hb => absurd (hab.trans hb) (not_le.2 hlo), fun _ => rfl⟩
      · rw [min_eq_left hlo.le, min_eq_right hgt.le]
        exact piece.tiles
      · rw [max_eq_right (hlo.le.trans hab), max_eq_right hhi]
        exact rfl
  | rightOnly hlo hlt hhi piece =>
      refine ⟨?_, ?_, fun hb => absurd hlt (not_lt.2 hb), fun hb => absurd hhi (not_lt.2 hb.le)⟩
      · rw [min_eq_right hlo, min_eq_right (hab.trans hhi.le)]
        exact rfl
      · rw [max_eq_right hlt.le, max_eq_left hhi.le]
        exact piece.tiles
  | dropped hlo hlt hgt hhi =>
      refine ⟨?_, ?_, fun hb => absurd hlt (not_lt.2 hb), fun _ => rfl⟩
      · rw [min_eq_right hlo, min_eq_right hgt.le]
        exact rfl
      · rw [max_eq_right hlt.le, max_eq_right hhi]
        exact rfl

/-- Cutting never produces an empty piece of an item that had to be nonempty. -/
theorem valid {editRate : Timebase} (h : ItemCut a b shift item before after fragment)
    (hitem : item.Valid editRate) : ∀ new ∈ before ++ after, new.Valid editRate := by
  have hne : item.isGap = true ∨ item.lo + shift < item.hi + shift :=
    hitem.nonempty.imp_right fun h => by
      have := TimedItem.isEmpty_iff.1 h
      linarith
  cases h with
  | kept _ _ => simpa using hitem
  | moved _ piece => simpa using piece.valid hitem hne
  | split hlo hhi _ leftPiece rightPiece =>
      simpa using ⟨leftPiece.valid hitem (.inr hlo),
        rightPiece.valid hitem (.inr (by linarith))⟩
  | leftOnly hlo _ _ piece => simpa using piece.valid hitem (.inr hlo)
  | rightOnly _ _ hhi piece => simpa using piece.valid hitem (.inr (by linarith))
  | dropped => simp

/-- Pieces carry the identity of their item or the fragment identity used for it. -/
theorem ids_subset (h : ItemCut a b shift item before after fragment) :
    ∀ new ∈ before ++ after, new.id = item.id ∨ some new.id = fragment := by
  cases h with
  | kept _ _ => simp
  | moved _ piece => simp [piece.id]
  | split _ _ _ leftPiece rightPiece => simp [leftPiece.id, rightPiece.id]
  | leftOnly _ _ _ piece => simp [piece.id]
  | rightOnly _ _ _ piece => simp [piece.id]
  | dropped => simp

theorem ids_nodup (h : ItemCut a b shift item before after fragment)
    (hfresh : some item.id ≠ fragment) : ((before ++ after).map TimedItem.id).Nodup := by
  cases h with
  | kept _ _ => simp
  | moved _ piece => simp
  | split _ _ _ leftPiece rightPiece =>
      simp only [List.singleton_append, List.map_cons, List.map_nil, leftPiece.id, rightPiece.id]
      simpa using hfresh
  | leftOnly _ _ _ piece => simp
  | rightOnly _ _ _ piece => simp
  | dropped => simp

/-- Every instant of the item outside the hole is carried to its new place. -/
theorem continues (h : ItemCut a b shift item before after fragment) (hab : a ≤ b) {t : ℚ}
    (ht : Covers TimedItem.lo TimedItem.hi t item) :
    (t < a → ∃ new ∈ before ++ after, Continues (fragmentOf item fragment) item t new t) ∧
      (b ≤ t → ∃ new ∈ before ++ after,
        Continues (fragmentOf item fragment) item t new (t + shift)) := by
  obtain ⟨htlo, hthi⟩ := ht
  cases h with
  | kept hhi _ =>
      exact ⟨fun _ => ⟨item, by simp, Continues.refl ⟨htlo, hthi⟩⟩,
        fun hb => absurd (lt_of_lt_of_le hthi (hhi.trans hab)) (not_lt.2 hb)⟩
  | @moved new hlo piece =>
      exact ⟨fun hta => absurd (lt_of_lt_of_le hta hab) (not_lt.2 (hlo.trans htlo)),
        fun hb => ⟨new, by simp, piece.continues (.inl rfl) (by linarith) (by linarith)⟩⟩
  | @split left right f hlo hhi _ leftPiece rightPiece =>
      exact ⟨fun hta => ⟨left, by simp, leftPiece.keeps (.inl rfl) htlo hta⟩,
        fun hb => ⟨right, by simp, rightPiece.continues (.inr (by simp [fragmentOf]))
          (by linarith) (by linarith)⟩⟩
  | @leftOnly left hlo hgt hhi piece =>
      exact ⟨fun hta => ⟨left, by simp, piece.keeps (.inl rfl) htlo hta⟩,
        fun hb => absurd (lt_of_lt_of_le hthi hhi) (not_lt.2 hb)⟩
  | @rightOnly right hlo hlt hhi piece =>
      exact ⟨fun hta => absurd (lt_of_le_of_lt htlo hta) (not_lt.2 hlo),
        fun hb => ⟨right, by simp, piece.continues (.inl rfl) (by linarith) (by linarith)⟩⟩
  | dropped hlo hlt hgt hhi =>
      exact ⟨fun hta => absurd (lt_of_le_of_lt htlo hta) (not_lt.2 hlo),
        fun hb => absurd (lt_of_lt_of_le hthi hhi) (not_lt.2 hb)⟩

end ItemCut

/-! ## The whole walk -/

/-- The pieces of a list of items cut at one hole, with the fragment identities they consumed
and the fragment records they reported. -/
inductive CutRun (a b shift : ℚ) :
    List TimedItem → List TimedItem → List EditorialObjectId → List EditFragment → Prop
  | nil : CutRun a b shift [] [] [] []
  | cons {item : TimedItem} {items before after pieces : List TimedItem}
      {fragment : Option EditorialObjectId} {used : List EditorialObjectId}
      {created : List EditFragment} (head : ItemCut a b shift item before after fragment)
      (tail : CutRun a b shift items pieces used created) :
      CutRun a b shift (item :: items) (before ++ after ++ pieces) (fragment.toList ++ used)
        (fragmentOf item fragment ++ created)

namespace CutRun

variable {a b shift : ℚ} {items pieces : List TimedItem} {used : List EditorialObjectId}
  {created : List EditFragment}

theorem cutAll (h : CutRun a b shift items pieces used created) (hab : a ≤ b) :
    CutAll TimedItem.lo TimedItem.hi a b (· + shift) items pieces := by
  induction h with
  | nil => exact .nil
  | cons head _ ih => exact .cons (head.cut hab) ih

theorem valid {editRate : Timebase} (h : CutRun a b shift items pieces used created)
    (hitems : ∀ item ∈ items, item.Valid editRate) : ∀ new ∈ pieces, new.Valid editRate := by
  induction h with
  | nil => exact fun _ hmem => (List.not_mem_nil hmem).elim
  | cons head _ ih =>
      intro new hmem
      rcases List.mem_append.1 hmem with hmem | hmem
      · exact head.valid (hitems _ List.mem_cons_self) new hmem
      · exact ih (fun item hitem => hitems item (List.mem_cons_of_mem _ hitem)) new hmem

theorem ids_subset (h : CutRun a b shift items pieces used created) :
    ∀ new ∈ pieces, new.id ∈ items.map TimedItem.id ∨ new.id ∈ used := by
  induction h with
  | nil => exact fun _ hmem => (List.not_mem_nil hmem).elim
  | @cons item items before after pieces fragment used created head _ ih =>
      intro new hmem
      rcases List.mem_append.1 hmem with hmem | hmem
      · rcases head.ids_subset new hmem with hid | hid
        · exact .inl (by simp [hid])
        · exact .inr (by simp [← hid])
      · exact (ih new hmem).imp (List.mem_cons_of_mem _) (List.mem_append_right _)

theorem ids_nodup (h : CutRun a b shift items pieces used created)
    (hitems : (items.map TimedItem.id).Nodup) (hused : used.Nodup)
    (hfresh : ∀ id ∈ used, id ∉ items.map TimedItem.id) : (pieces.map TimedItem.id).Nodup := by
  induction h with
  | nil => exact List.nodup_nil
  | @cons item items before after pieces fragment used created head tail ih =>
      obtain ⟨hitem, hrest⟩ := List.nodup_cons.1 hitems
      obtain ⟨-, husedRest, hdisj⟩ := List.nodup_append.1 hused
      have hfreshRest : ∀ id ∈ used, id ∉ items.map TimedItem.id := fun id hid hmem =>
        hfresh id (List.mem_append_right _ hid) (List.mem_cons_of_mem _ hmem)
      have hhead : some item.id ≠ fragment := fun heq =>
        hfresh item.id (by simp [← heq]) List.mem_cons_self
      rw [List.map_append]
      refine List.nodup_append.2 ⟨head.ids_nodup hhead, ih hrest husedRest hfreshRest, ?_⟩
      intro x hx y hy hxy
      subst hxy
      obtain ⟨new, hnew, rfl⟩ := List.mem_map.1 hx
      obtain ⟨other, hother, heq⟩ := List.mem_map.1 hy
      -- a piece of a later item carries a later identity or a later fragment
      rcases head.ids_subset new hnew with hid | hid <;>
        rcases tail.ids_subset other hother with hid' | hid'
      · exact hitem (hid ▸ heq ▸ hid')
      · exact hfresh new.id (List.mem_append_right _ (heq ▸ hid')) (by simp [hid])
      · exact hfresh new.id (by simp [← hid]) (List.mem_cons_of_mem _ (heq ▸ hid'))
      · exact hdisj new.id (by simp [← hid]) new.id (heq ▸ hid') rfl

theorem continues (h : CutRun a b shift items pieces used created) (hab : a ≤ b)
    {item : TimedItem} (hitem : item ∈ items) {t : ℚ}
    (ht : Covers TimedItem.lo TimedItem.hi t item) :
    (t < a → ∃ new ∈ pieces, Continues created item t new t) ∧
      (b ≤ t → ∃ new ∈ pieces, Continues created item t new (t + shift)) := by
  induction h with
  | nil => cases hitem
  | @cons head items before after pieces fragment used created hcut _ ih =>
      rcases List.mem_cons.1 hitem with rfl | hitem
      · obtain ⟨hbefore, hafter⟩ := hcut.continues hab ht
        have lift : ∀ {t' : ℚ}, (∃ new ∈ before ++ after,
            Continues (fragmentOf item fragment) item t new t') →
            ∃ new ∈ before ++ after ++ pieces,
              Continues (fragmentOf item fragment ++ created) item t new t' :=
          fun ⟨new, hmem, hnew⟩ => ⟨new, List.mem_append_left _ hmem,
            hnew.mono fun _ => List.mem_append_left _⟩
        exact ⟨fun hta => lift (hbefore hta), fun hb => lift (hafter hb)⟩
      · obtain ⟨hbefore, hafter⟩ := ih hitem
        have lift : ∀ {t' : ℚ}, (∃ new ∈ pieces, Continues created item t new t') →
            ∃ new ∈ before ++ after ++ pieces,
              Continues (fragmentOf head fragment ++ created) item t new t' :=
          fun ⟨new, hmem, hnew⟩ => ⟨new, List.mem_append_right _ hmem,
            hnew.mono fun _ => List.mem_append_right _⟩
        exact ⟨fun hta => lift (hbefore hta), fun hb => lift (hafter hb)⟩

end CutRun

/-! ## The loop bodies -/

/-- What one step of either loop does to the accumulators. -/
def StepCuts (a b shift : ℚ) (step : EditScan → TimedItem → Except Error EditScan) : Prop :=
  ∀ scan item scan', step scan item = .ok scan' → ∃ before after fragment,
    ItemCut a b shift item before after fragment ∧
      scan'.output = scan.output ++ (before ++ after) ∧
      scan.fragmentIds = fragment.toList ++ scan'.fragmentIds ∧
      scan'.created = scan.created ++ fragmentOf item fragment

/-- A loop whose step cuts items performs a cut run. -/
theorem StepCuts.run {a b shift : ℚ} {step : EditScan → TimedItem → Except Error EditScan}
    (hstep : StepCuts a b shift step) :
    ∀ {items : List TimedItem} {scan scan' : EditScan}, items.foldlM step scan = .ok scan' →
      ∃ pieces used created, CutRun a b shift items pieces used created ∧
        scan'.output = scan.output ++ pieces ∧ scan.fragmentIds = used ++ scan'.fragmentIds ∧
        scan'.created = scan.created ++ created
  | [], scan, scan', h => by
      have heq : scan = scan' := by simpa [pure_eq_ok] using h
      subst heq
      exact ⟨[], [], [], .nil, by simp, by simp, by simp⟩
  | item :: items, scan, scan', h => by
      rw [List.foldlM_cons, bind_eq_ok] at h
      obtain ⟨mid, hmid, hrest⟩ := h
      obtain ⟨before, after, fragment, hcut, hout, hfrag, hcreated⟩ := hstep scan item mid hmid
      obtain ⟨pieces, used, created, hrun, hout', hfrag', hcreated'⟩ := hstep.run hrest
      refine ⟨_, _, _, .cons hcut hrun, ?_, ?_, ?_⟩
      · rw [hout', hout]
        simp
      · rw [hfrag, hfrag']
        simp
      · rw [hcreated', hcreated]
        simp

theorem nextFragment_spec {fragmentIds rest : List EditorialObjectId}
    {original id : EditorialObjectId} {operation : String}
    (h : nextFragment fragmentIds original operation = .ok (id, rest)) :
    fragmentIds = id :: rest ∧ sameTypedDomain original id = true := by
  unfold nextFragment at h
  split at h
  · cases h
  · split at h
    · rename_i hdomain
      simp only [pure_eq_ok, Prod.mk.injEq] at h
      obtain ⟨rfl, rfl⟩ := h
      exact ⟨rfl, hdomain⟩
    · cases h

theorem finishFragments_eq_ok {fragmentIds : List EditorialObjectId} {operation : String} {u : Unit} :
    finishFragments fragmentIds operation = .ok u ↔ fragmentIds = [] := by
  rw [finishFragments, rejectIf_eq_ok, not_not]

/-- The insert loop cuts at the point `at'` and moves everything behind it right. -/
theorem insertStep_cuts (at' : RationalTime) (duration : Duration) (timebase : Timebase) :
    StepCuts at'.seconds at'.seconds duration.seconds (insertStep at' duration timebase) := by
  intro scan item scan' h
  unfold insertStep at h
  split at h
  · rename_i hcross
    obtain ⟨hlo, hhi⟩ := hcross
    simp only [bind_eq_ok, pure_eq_ok, Prod.exists] at h
    obtain ⟨left, hleft, rightId, rest, hnext, right, hright, shifted, hshift, rfl⟩ := h
    obtain ⟨hfrag, hdomain⟩ := nextFragment_spec hnext
    have hrightPiece := (sliceItem_piece hright).trans (by
      have := shiftItemRight_piece hshift
      rwa [(sliceItem_piece hright).id, (sliceItem_piece hright).lo,
        (sliceItem_piece hright).hi] at this)
    rw [zero_add] at hrightPiece
    exact ⟨[left], [shifted], some rightId,
      .split (RationalTime.lt_iff_seconds.1 hlo) (RationalTime.lt_iff_seconds.1 hhi) hdomain
        (sliceItem_piece hleft) hrightPiece, by simp, by simp [hfrag], by simp [fragmentOf]⟩
  · rename_i hcross
    split at h
    · rename_i hle
      simp only [bind_eq_ok, pure_eq_ok] at h
      obtain ⟨shifted, hshift, rfl⟩ := h
      exact ⟨[], [shifted], none, .moved (RationalTime.le_iff_seconds.1 hle)
        (shiftItemRight_piece hshift), by simp, by simp, by simp [fragmentOf]⟩
    · rename_i hnle
      rw [pure_eq_ok] at h
      subst h
      have hlo : item.lo < at'.seconds :=
        not_le.1 fun hle => hnle (RationalTime.le_iff_seconds.2 hle)
      have hhi : item.hi ≤ at'.seconds := not_lt.1 fun hlt =>
        hcross ⟨RationalTime.lt_iff_seconds.2 hlo, RationalTime.lt_iff_seconds.2 hlt⟩
      exact ⟨[item], [], none, .kept hhi (.inl hlo), by simp, by simp, by simp [fragmentOf]⟩

/-- The displacement of what lies behind a replaced range. -/
def closingShift (range : TimeRange) (closeRange : Bool) : ℚ :=
  if closeRange then -range.duration.seconds else 0

/-- The part right of the range, moved when the range is closed. -/
theorem closeRight_piece {range : TimeRange} {closeRange : Bool} {timebase : Timebase}
    {item placed : TimedItem}
    (h : closeRight range closeRange timebase item = .ok placed) :
    Piece item placed item.id (item.lo + closingShift range closeRange)
      (item.hi + closingShift range closeRange) (closingShift range closeRange) := by
  unfold closeRight at h
  unfold closingShift
  split at h
  · rename_i hclose
    rw [if_pos hclose]
    exact shiftItemLeft_piece h
  · rename_i hclose
    rw [if_neg hclose, add_zero, add_zero]
    rw [pure_eq_ok] at h
    exact h ▸ Piece.refl item

/-- The range-replacement loop cuts out the range and, when closing it, moves everything behind
it left. -/
theorem replacementStep_cuts (range : TimeRange) (closeRange : Bool) (timebase : Timebase)
    (operation : String) (hne : range.isEmpty = false) :
    StepCuts range.start.seconds range.endExclusive.seconds (closingShift range closeRange)
      (replacementStep range closeRange timebase operation) := by
  have hab : range.start.seconds < range.endExclusive.seconds := TimeRange.start_lt_end_iff.2 hne
  intro scan item scan' h
  unfold replacementStep at h
  split at h
  · rename_i hle
    rw [pure_eq_ok] at h
    subst h
    exact ⟨[item], [], none, .kept (RationalTime.le_iff_seconds.1 hle) (.inr hab), by simp,
      by simp, by simp [fragmentOf]⟩
  rename_i hnle
  have hgt : range.start.seconds < item.hi :=
    not_le.1 fun hle => hnle (RationalTime.le_iff_seconds.2 hle)
  split at h
  · rename_i hge
    have hlo := RationalTime.le_iff_seconds.1 hge
    have hmoved : ∃ placed, closeRight range closeRange timebase item = .ok placed ∧
        scan'.output = scan.output ++ [placed] ∧
        scan'.fragmentIds = scan.fragmentIds ∧ scan'.created = scan.created := by
      split at h
      · rename_i hclose
        simp only [bind_eq_ok, pure_eq_ok] at h
        obtain ⟨shifted, hshift, rfl⟩ := h
        exact ⟨shifted, by rw [closeRight, if_pos hclose, hshift], rfl, rfl, rfl⟩
      · rename_i hclose
        rw [pure_eq_ok] at h
        subst h
        exact ⟨item, by rw [closeRight, if_neg hclose]; rfl, rfl, rfl, rfl⟩
    obtain ⟨placed, hplaced, hout, hfrag, hcreated⟩ := hmoved
    exact ⟨[], [placed], none, .moved hlo (closeRight_piece hplaced), by simp [hout],
      by simp [hfrag], by simp [hcreated, fragmentOf]⟩
  rename_i hnge
  have hlt : item.lo < range.endExclusive.seconds :=
    not_le.1 fun hle => hnge (RationalTime.le_iff_seconds.2 hle)
  simp only [bind_eq_ok, pure_eq_ok] at h
  obtain ⟨scanLeft, hleft, scanRight, hright, hscan⟩ := h
  -- the removed identity is reported, nothing else changes
  have hsame : scan'.output = scanRight.output ∧ scan'.fragmentIds = scanRight.fragmentIds ∧
      scan'.created = scanRight.created := by
    subst hscan
    split <;> exact ⟨rfl, rfl, rfl⟩
  unfold keepLeft at hleft
  unfold keepRight at hright
  by_cases hkeepLeft : item.recordRange.start < range.start
  · have hlo : item.lo < range.start.seconds := RationalTime.lt_iff_seconds.1 hkeepLeft
    rw [if_pos hkeepLeft] at hleft
    simp only [bind_eq_ok, pure_eq_ok] at hleft
    obtain ⟨left, hslice, rfl⟩ := hleft
    have hleftPiece := sliceItem_piece hslice
    by_cases hkeepRight : range.endExclusive < item.recordRange.endExclusive
    · have hhi : range.endExclusive.seconds < item.hi := RationalTime.lt_iff_seconds.1 hkeepRight
      rw [if_pos hkeepRight] at hright
      simp only [rightIdentity, if_pos hkeepLeft, bind_eq_ok, pure_eq_ok, Prod.exists,
        Prod.mk.injEq] at hright
      obtain ⟨rightId, scanNext, ⟨fragment, rest, hnext, rfl, rfl⟩, right, hslice', placed,
        hplaced, rfl⟩ := hright
      obtain ⟨hfrag, hdomain⟩ := nextFragment_spec hnext
      have hrightPiece := (sliceItem_piece hslice').trans (by
        have := closeRight_piece hplaced
        rwa [(sliceItem_piece hslice').id, (sliceItem_piece hslice').lo,
          (sliceItem_piece hslice').hi] at this)
      rw [zero_add] at hrightPiece
      obtain ⟨hout, hfragIds, hcreated⟩ := hsame
      exact ⟨[left], [placed], some fragment, .split hlo hhi hdomain hleftPiece hrightPiece,
        by simp [hout], by simpa [hfragIds] using hfrag, by simp [hcreated, fragmentOf]⟩
    · rw [if_neg hkeepRight, pure_eq_ok] at hright
      subst hright
      have hhi : item.hi ≤ range.endExclusive.seconds :=
        not_lt.1 fun h => hkeepRight (RationalTime.lt_iff_seconds.2 h)
      obtain ⟨hout, hfragIds, hcreated⟩ := hsame
      exact ⟨[left], [], none, .leftOnly hlo hgt hhi hleftPiece, by simp [hout],
        by simp [hfragIds], by simp [hcreated, fragmentOf]⟩
  · have hlo : range.start.seconds ≤ item.lo :=
      not_lt.1 fun h => hkeepLeft (RationalTime.lt_iff_seconds.2 h)
    rw [if_neg hkeepLeft, pure_eq_ok] at hleft
    subst hleft
    by_cases hkeepRight : range.endExclusive < item.recordRange.endExclusive
    · have hhi : range.endExclusive.seconds < item.hi := RationalTime.lt_iff_seconds.1 hkeepRight
      rw [if_pos hkeepRight] at hright
      simp only [rightIdentity, if_neg hkeepLeft, bind_eq_ok, pure_eq_ok, Prod.exists,
        Prod.mk.injEq] at hright
      obtain ⟨_, _, ⟨rfl, rfl⟩, right, hslice', placed, hplaced, rfl⟩ := hright
      have hrightPiece := (sliceItem_piece hslice').trans (by
        have := closeRight_piece hplaced
        rwa [(sliceItem_piece hslice').id, (sliceItem_piece hslice').lo,
          (sliceItem_piece hslice').hi] at this)
      rw [zero_add] at hrightPiece
      obtain ⟨hout, hfragIds, hcreated⟩ := hsame
      exact ⟨[], [placed], none, .rightOnly hlo hlt hhi hrightPiece, by simp [hout],
        by simp [hfragIds], by simp [hcreated, fragmentOf]⟩
    · rw [if_neg hkeepRight, pure_eq_ok] at hright
      subst hright
      have hhi : item.hi ≤ range.endExclusive.seconds :=
        not_lt.1 fun h => hkeepRight (RationalTime.lt_iff_seconds.2 h)
      obtain ⟨hout, hfragIds, hcreated⟩ := hsame
      exact ⟨[], [], none, .dropped hlo hlt hgt hhi, by simp [hout], by simp [hfragIds],
        by simp [hcreated, fragmentOf]⟩

end Editorial
end Superi

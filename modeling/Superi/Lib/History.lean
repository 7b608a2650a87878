import Mathlib

/-!
# History — lists in the order in which things happened

A *zipper* is a present between a past, kept newest first, and a future, kept oldest first.  A
*tape* is a queue together with everything that went through it: what was ever written is what has
been settled followed by what still waits.  *Retention* keeps the longest suffix of a history that
fits a bound, one element at a time.  A *recency* list keeps keyed entries with the one used longest
ago in front.
-/

namespace Superi

/-- One state with the states around it. -/
structure Zipper (α : Type*) where
  past : List α
  present : α
  future : List α

namespace Zipper

variable {α : Type*}

/-- A new present; the future is forgotten, and so is what lies too far back. -/
def record (capacity : Nat) (zipper : Zipper α) (present : α) : Zipper α where
  past := (zipper.present :: zipper.past).take capacity
  present := present
  future := []

def back (zipper : Zipper α) : Option (Zipper α) :=
  match zipper.past with
  | [] => none
  | before :: rest => some ⟨rest, before, zipper.present :: zipper.future⟩

def forward (zipper : Zipper α) : Option (Zipper α) :=
  match zipper.future with
  | [] => none
  | after :: rest => some ⟨zipper.present :: zipper.past, after, rest⟩

/-- Several moves of one kind. -/
def times (move : Zipper α → Option (Zipper α)) : Nat → Zipper α → Option (Zipper α)
  | 0, zipper => some zipper
  | count + 1, zipper => (move zipper).bind (times move count)

@[simp] theorem back_record {capacity : Nat} (zipper : Zipper α) (present : α) :
    (zipper.record (capacity + 1) present).back =
      some ⟨zipper.past.take capacity, zipper.present, [present]⟩ := rfl

theorem forward_eq_some_of_back {zipper earlier : Zipper α} (h : zipper.back = some earlier) :
    earlier.forward = some zipper := by
  cases zipper with
  | mk past present future =>
      cases past with
      | nil => cases h
      | cons before rest =>
          cases h
          rfl

theorem times_succ (move : Zipper α → Option (Zipper α)) (count : Nat) (zipper : Zipper α) :
    times move (count + 1) zipper = (times move count zipper).bind move := by
  induction count generalizing zipper with
  | zero =>
      simp only [times, Option.bind_some]
      cases move zipper with
      | none => rfl
      | some next => rfl
  | succ count ih =>
      rw [times]
      cases h : move zipper with
      | none => simp [times, h]
      | some next =>
          have hsucc : times move (count + 1) zipper = times move count next := by simp [times, h]
          rw [hsucc]
          exact ih next

/-- Moves are taken back by as many moves that take one back. -/
theorem times_of_times {move undo : Zipper α → Option (Zipper α)}
    (hundo : ∀ {zipper next : Zipper α}, move zipper = some next → undo next = some zipper)
    {count : Nat} {zipper last : Zipper α} (h : times move count zipper = some last) :
    times undo count last = some zipper := by
  induction count generalizing zipper with
  | zero =>
      cases h
      rfl
  | succ count ih =>
      obtain ⟨next, hmove, hrest⟩ := Option.bind_eq_some_iff.1 h
      rw [times_succ, ih hrest]
      exact hundo hmove

end Zipper

structure Tape (α φ : Type*) where
  settled : List (α × φ)
  waiting : List α

namespace Tape

variable {α β φ : Type*}

def empty : Tape α φ := ⟨[], []⟩

/-- Everything ever written, in order. -/
def written (tape : Tape α φ) : List α :=
  tape.settled.map Prod.fst ++ tape.waiting

def write (tape : Tape α φ) (entries : List α) : Tape α φ :=
  { tape with waiting := tape.waiting ++ entries }

/-- The oldest waiting entries meet one fate. -/
def settle (tape : Tape α φ) (count : Nat) (fate : φ) : Tape α φ :=
  { settled := tape.settled ++ (tape.waiting.take count).map (·, fate)
    waiting := tape.waiting.drop count }

/-- The settled entries whose fate is shown, in order. -/
def shown (tape : Tape α φ) (image : α → φ → Option β) : List β :=
  tape.settled.filterMap fun entry => image entry.1 entry.2

@[simp] theorem settled_write (tape : Tape α φ) (entries : List α) :
    (tape.write entries).settled = tape.settled := rfl

@[simp] theorem waiting_write (tape : Tape α φ) (entries : List α) :
    (tape.write entries).waiting = tape.waiting ++ entries := rfl

@[simp] theorem waiting_settle (tape : Tape α φ) (count : Nat) (fate : φ) :
    (tape.settle count fate).waiting = tape.waiting.drop count := rfl

@[simp] theorem shown_write (tape : Tape α φ) (entries : List α) (image : α → φ → Option β) :
    (tape.write entries).shown image = tape.shown image := rfl

theorem written_write (tape : Tape α φ) (entries : List α) :
    (tape.write entries).written = tape.written ++ entries := by
  rw [written, settled_write, waiting_write, ← List.append_assoc, written]

/-- Settling rewrites nothing. -/
theorem written_settle (tape : Tape α φ) (count : Nat) (fate : φ) :
    (tape.settle count fate).written = tape.written := by
  have hfirst : ((tape.waiting.take count).map (·, fate)).map Prod.fst =
      tape.waiting.take count := by
    rw [List.map_map]
    exact List.map_id' _
  rw [written, written, waiting_settle, settle, List.map_append, hfirst, List.append_assoc,
    List.take_append_drop]

theorem mem_settled_settle {tape : Tape α φ} {count : Nat} {fate : φ} {entry : α × φ} :
    entry ∈ (tape.settle count fate).settled ↔
      entry ∈ tape.settled ∨ entry.1 ∈ tape.waiting.take count ∧ entry.2 = fate := by
  rw [settle, List.mem_append, List.mem_map]
  constructor
  · rintro (hsettled | ⟨first, hfirst, rfl⟩)
    · exact .inl hsettled
    · exact .inr ⟨hfirst, rfl⟩
  · rintro (hsettled | ⟨hfirst, rfl⟩)
    · exact .inl hsettled
    · exact .inr ⟨entry.1, hfirst, rfl⟩

theorem shown_settle (tape : Tape α φ) (count : Nat) (fate : φ) (image : α → φ → Option β) :
    (tape.settle count fate).shown image =
      tape.shown image ++ (tape.waiting.take count).filterMap (image · fate) := by
  rw [shown, shown, settle, List.filterMap_append, List.filterMap_map]
  rfl

/-- A fate that is not shown. -/
theorem shown_settle_hidden (tape : Tape α φ) (count : Nat) {fate : φ} {image : α → φ → Option β}
    (hhidden : ∀ entry, image entry fate = none) :
    (tape.settle count fate).shown image = tape.shown image := by
  rw [shown_settle, List.filterMap_eq_nil_iff.2 fun entry _ => hhidden entry, List.append_nil]

end Tape

namespace Retention

variable {α : Type*} {fits : List α → Prop} {history kept kept' : List α} {newest : α}

/-- The longest suffix of the history that fits. -/
structure Longest (fits : List α → Prop) (history kept : List α) : Prop where
  suffix : kept <:+ history
  within : fits kept
  most : ∀ other, other <:+ history → fits other → other.length ≤ kept.length

/-- Drop the oldest elements until the rest fits. -/
def shrink (fits : List α → Prop) [DecidablePred fits] : List α → List α
  | [] => []
  | oldest :: rest => if fits (oldest :: rest) then oldest :: rest else shrink fits rest

theorem longest_shrink [DecidablePred fits] (hempty : fits []) (history : List α) :
    Longest fits history (shrink fits history) := by
  induction history with
  | nil =>
      exact ⟨List.suffix_refl [], hempty, fun other hother _ => hother.length_le⟩
  | cons oldest rest ih =>
      rw [shrink]
      split
      · rename_i hfits
        exact ⟨List.suffix_refl _, hfits, fun other hother _ => hother.length_le⟩
      · rename_i hover
        refine ⟨ih.suffix.trans (List.suffix_cons oldest rest), ih.within, fun other hother hfits => ?_⟩
        rcases List.suffix_cons_iff.1 hother with rfl | hother
        · exact absurd hfits hover
        · exact ih.most other hother hfits

/-- The longest fitting suffix is found from the one before and the newest element. -/
theorem Longest.concat (hinit : ∀ list newest, fits (list ++ [newest]) → fits list)
    (h : Longest fits history kept) (h' : Longest fits (kept ++ [newest]) kept') :
    Longest fits (history ++ [newest]) kept' := by
  obtain ⟨dropped, rfl⟩ := h.suffix
  refine ⟨h'.suffix.trans ⟨dropped, by rw [List.append_assoc]⟩, h'.within, fun other hother hfits => ?_⟩
  refine h'.most other ?_ hfits
  -- a fitting suffix with the newest element is no longer than what was kept with it
  rcases List.suffix_concat_iff.1 hother with rfl | ⟨front, rfl, hfront⟩
  · exact List.nil_suffix
  · have hlength : front.length ≤ kept.length := h.most front hfront (hinit front newest hfits)
    obtain ⟨skipped, hskipped⟩ := List.suffix_of_suffix_length_le hfront h.suffix hlength
    exact ⟨skipped, by rw [← List.append_assoc, hskipped]⟩

end Retention

namespace Recency

variable {κ V : Type*} [DecidableEq κ]

/-- Every entry but the one under a key. -/
def remove (entries : List (κ × V)) (key : κ) : List (κ × V) :=
  entries.filter fun entry => entry.1 ≠ key

/-- The value under a key. -/
def lookup : List (κ × V) → κ → Option V
  | [], _ => none
  | entry :: rest, key => if entry.1 = key then some entry.2 else lookup rest key

/-- The entry under a key becomes the newest. -/
def insert (entries : List (κ × V)) (key : κ) (value : V) : List (κ × V) :=
  remove entries key ++ [(key, value)]

/-- A use of a key: the entry under it becomes the newest, if there is one. -/
def touch (entries : List (κ × V)) (key : κ) : List (κ × V) :=
  match lookup entries key with
  | some value => insert entries key value
  | none => entries

omit [DecidableEq κ] in
/-- The oldest eligible entries, at most so many, and what is left. -/
def evict (eligible : κ → Bool) : Nat → List (κ × V) → List (κ × V) × List (κ × V)
  | 0, entries => ([], entries)
  | _ + 1, [] => ([], [])
  | maximum + 1, entry :: rest =>
      if eligible entry.1 then
        let (evicted, kept) := evict eligible maximum rest
        (entry :: evicted, kept)
      else
        let (evicted, kept) := evict eligible (maximum + 1) rest
        (evicted, entry :: kept)

/-- No key has two entries. -/
def Distinct (entries : List (κ × V)) : Prop := (entries.map Prod.fst).Nodup

variable {entries : List (κ × V)} {key : κ} {value : V}

theorem lookup_eq_some (hdistinct : Distinct entries) :
    lookup entries key = some value ↔ (key, value) ∈ entries := by
  induction entries with
  | nil => exact ⟨nofun, nofun⟩
  | cons entry rest ih =>
      obtain ⟨other, found⟩ := entry
      obtain ⟨hfirst, hrest⟩ := List.nodup_cons.1 hdistinct
      rw [lookup, List.mem_cons]
      split
      · rename_i heq
        cases heq
        -- the key has its entry here and none further on
        have hnone : (other, value) ∉ rest := fun hmem =>
          hfirst (List.mem_map.2 ⟨_, hmem, rfl⟩)
        simp [hnone, eq_comm]
      · rename_i hne
        rw [ih hrest]
        simp [show key ≠ other from fun heq => hne heq.symm]

omit [DecidableEq κ] in
theorem evict_fst (eligible : κ → Bool) (maximum : Nat) (entries : List (κ × V)) :
    (evict eligible maximum entries).1 =
      (entries.filter fun entry => eligible entry.1).take maximum := by
  induction entries generalizing maximum with
  | nil => cases maximum <;> rfl
  | cons entry rest ih =>
      cases maximum with
      | zero => rfl
      | succ maximum =>
          rw [evict, List.filter_cons]
          split
          · simp [ih maximum]
          · simp [ih (maximum + 1)]

/-- What is left are the entries whose keys were not taken. -/
theorem evict_snd (eligible : κ → Bool) (maximum : Nat) (hdistinct : Distinct entries) :
    (evict eligible maximum entries).2 =
      entries.filter fun entry => entry.1 ∉ (evict eligible maximum entries).1.map Prod.fst := by
  induction entries generalizing maximum with
  | nil => cases maximum <;> rfl
  | cons entry rest ih =>
      obtain ⟨hfirst, hrest⟩ := List.nodup_cons.1 hdistinct
      cases maximum with
      | zero => simp [evict]
      | succ maximum =>
          rw [evict]
          split
          · rename_i heligible
            -- the later entries have other keys than the one taken here
            have hother : ∀ other ∈ rest, other.1 ≠ entry.1 := fun other hmem heq =>
              hfirst (List.mem_map.2 ⟨other, hmem, heq⟩)
            rw [List.filter_cons_of_neg (by simp), ih maximum hrest]
            refine List.filter_congr fun other hmem => ?_
            simp only [List.map_cons, List.mem_cons, hother other hmem, false_or]
          · rename_i hkept
            have htaken : entry.1 ∉ (evict eligible (maximum + 1) rest).1.map Prod.fst := by
              rw [evict_fst]
              intro hmem
              obtain ⟨other, hother, heq⟩ := List.mem_map.1 hmem
              have heligible := (List.mem_filter.1 (List.mem_of_mem_take hother)).2
              exact hkept (heq ▸ heligible)
            rw [List.filter_cons_of_pos (by simpa using htaken), ← ih (maximum + 1) hrest]

end Recency
end Superi

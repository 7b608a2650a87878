import Mathlib

/-!
# Delimited — the marks of a text and where they stand

A text is cut at its marks.  Where the marks stand says what lies between them, and the other way
round, so that a cut by positions can be read as a concatenation.
-/

namespace Superi
namespace Delimited

variable {α : Type*} (isMark : α → Bool)

/-- The marks of a text, each with its position, counted from `start`. -/
def marks (start : Nat) (text : List α) : List (α × Nat) :=
  (text.zipIdx start).filter fun (c, _) => isMark c

/-- No element is a mark. -/
def Plain (text : List α) : Prop := ∀ c ∈ text, isMark c = false

variable {isMark} {start : Nat} {text : List α} {c : α}

theorem marks_cons : marks isMark start (c :: text) =
    if isMark c then (c, start) :: marks isMark (start + 1) text
    else marks isMark (start + 1) text := by
  rw [marks, List.zipIdx_cons, List.filter_cons]
  rfl

theorem marks_plain_append {before : List α} (h : Plain isMark before) :
    marks isMark start (before ++ text) = marks isMark (start + before.length) text := by
  induction before generalizing start with
  | nil => rfl
  | cons d before ih =>
      obtain ⟨hd, hbefore⟩ := List.forall_mem_cons.1 h
      rw [List.cons_append, marks_cons, hd, if_neg Bool.false_ne_true, ih hbefore,
        List.length_cons, Nat.add_assoc, Nat.add_comm 1]

/-- A plain text has no marks. -/
theorem marks_eq_nil : marks isMark start text = [] ↔ Plain isMark text := by
  induction text generalizing start with
  | nil => exact ⟨fun _ c hc => absurd hc List.not_mem_nil, fun _ => rfl⟩
  | cons d text ih =>
      change _ ↔ ∀ c ∈ d :: text, isMark c = false
      rw [marks_cons, List.forall_mem_cons]
      cases hd : isMark d with
      | true => simp
      | false =>
          rw [if_neg Bool.false_ne_true, ih]
          exact (and_iff_right rfl).symm

/-- The first mark ends a plain text. -/
theorem marks_eq_cons {position : Nat} {rest : List (α × Nat)} :
    marks isMark start text = (c, position) :: rest ↔
      ∃ before after, text = before ++ c :: after ∧ Plain isMark before ∧ isMark c = true ∧
        position = start + before.length ∧ marks isMark (position + 1) after = rest := by
  constructor
  · intro h
    induction text generalizing start with
    | nil => cases h
    | cons d text ih =>
        rw [marks_cons] at h
        cases hd : isMark d with
        | true =>
            rw [hd, if_pos rfl] at h
            cases h
            exact ⟨[], text, rfl, fun _ hc => absurd hc List.not_mem_nil, hd, rfl, rfl⟩
        | false =>
            rw [hd, if_neg Bool.false_ne_true] at h
            obtain ⟨before, after, rfl, hplain, hc, rfl, hrest⟩ := ih h
            refine ⟨d :: before, after, rfl, List.forall_mem_cons.2 ⟨hd, hplain⟩, hc, ?_, hrest⟩
            rw [List.length_cons]
            omega
  · rintro ⟨before, after, rfl, hplain, hc, rfl, rfl⟩
    rw [marks_plain_append hplain, marks_cons, hc, if_pos rfl]

/-- What lies between two positions of a concatenation. -/
theorem drop_take_between {before between after : List α} {c : α} :
    ((before ++ c :: (between ++ after)).take (before.length + 1 + between.length)).drop
      (before.length + 1) = between := by
  have hsplit : before ++ c :: (between ++ after) = (before ++ [c] ++ between) ++ after := by simp
  have hlength : before.length + 1 + between.length = (before ++ [c] ++ between).length := by
    simp only [List.length_append, List.length_singleton]
  have hfront : before.length + 1 = (before ++ [c]).length := by
    rw [List.length_append, List.length_singleton]
  rw [hsplit, hlength, List.take_left', hfront, List.drop_left']
  · rfl
  · rfl

/-! ## Pieces -/

section Pieces

variable {β : Type*} [BEq α] [LawfulBEq α] [BEq β] [LawfulBEq β]

/-- The pieces between separators hold no separator and nothing new. -/
theorem mem_splitOn {separator : α} {text piece : List α} (h : piece ∈ text.splitOn separator) :
    separator ∉ piece ∧ ∀ c ∈ piece, c ∈ text := by
  induction text generalizing piece with
  | nil =>
      rw [List.splitOn_nil, List.mem_singleton] at h
      subst h
      exact ⟨List.not_mem_nil, fun _ hc => absurd hc List.not_mem_nil⟩
  | cons d text ih =>
      rw [List.splitOn_cons_eq_if_modifyHead] at h
      split at h
      · rcases List.mem_cons.1 h with rfl | hrest
        · exact ⟨List.not_mem_nil, fun _ hc => absurd hc List.not_mem_nil⟩
        · obtain ⟨hno, hmem⟩ := ih hrest
          exact ⟨hno, fun c hc => List.mem_cons_of_mem _ (hmem c hc)⟩
      · rename_i hd
        rw [beq_iff_eq] at hd
        cases hpieces : text.splitOn separator with
        | nil => exact absurd hpieces (List.splitOn_ne_nil _ _)
        | cons first pieces =>
            rw [hpieces] at h ih
            rw [List.modifyHead_cons] at h
            rcases List.mem_cons.1 h with rfl | hrest
            · obtain ⟨hno, hmem⟩ := ih List.mem_cons_self
              refine ⟨fun hin => ?_, fun c hc => ?_⟩
              · rcases List.mem_cons.1 hin with heq | hin
                · exact hd heq.symm
                · exact hno hin
              · rcases List.mem_cons.1 hc with rfl | hc
                · exact List.mem_cons_self
                · exact List.mem_cons_of_mem _ (hmem c hc)
            · obtain ⟨hno, hmem⟩ := ih (List.mem_cons_of_mem _ hrest)
              exact ⟨hno, fun c hc => List.mem_cons_of_mem _ (hmem c hc)⟩

/-- What follows a known beginning. -/
theorem dropPrefix?_append {front back : List α} : (front ++ back).dropPrefix? front = some back :=
  List.dropPrefix?_append_of_beq _ (beq_self_eq_true front)

end Pieces

end Delimited
end Superi

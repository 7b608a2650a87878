import Mathlib

/-!
# Walk — relative addresses

A relative address is a list of moves: stay, go up, go down by a name.  A walk keeps the names on
the way down and fails where it would leave its root.  Where it ends does not depend on the stays
and the detours among its moves.

Read lexically, an address is a list of names, one of which stands for a step up: a step up cancels
the name just before it.  Cancellation is a rewriting relation.  Its normal forms are the lists
whose steps up all come first, a stack computes the normal form of a list, and two lists that
cancellation relates have one normal form.
-/

namespace Superi
namespace Walk

variable {α : Type*}

inductive Move (α : Type*)
  | stay
  | up
  | down (name : α)

/-- One move from the place below the root. -/
def step (place : List α) : Move α → Option (List α)
  | .stay => some place
  | .up => if place = [] then none else some place.dropLast
  | .down name => some (place ++ [name])

/-- A whole walk. -/
def walk (place : List α) (moves : List (Move α)) : Option (List α) := moves.foldlM step place

variable {place : List α} {moves moves' : List (Move α)} {move : Move α} {name : α}

@[simp] theorem walk_nil : walk place [] = some place := rfl

@[simp] theorem walk_cons :
    walk place (move :: moves) = step place move >>= fun place => walk place moves := rfl

end Walk

namespace Ascent

variable {α : Type*} (up : α)

/-- One name is cancelled by the step up that follows it. -/
inductive Cancels : List α → List α → Prop
  | step (before after : List α) {name : α} (h : name ≠ up) :
      Cancels (before ++ name :: up :: after) (before ++ after)

/-- Only leading elements are steps up. -/
def Reduced (path : List α) : Prop :=
  ∃ (climb : Nat) (names : List α), path = List.replicate climb up ++ names ∧ up ∉ names

variable [DecidableEq α]

/-- Put one element on a stack whose top is its end. -/
def push (stack : List α) (x : α) : List α :=
  if x = up then
    match stack.getLast? with
    | none => [up]
    | some top => if top = up then stack ++ [up] else stack.dropLast
  else stack ++ [x]

/-- The normal form of a list. -/
def reduce (path : List α) : List α := path.foldl (push up) []

variable {up} {path path' stack before after : List α} {name x : α}

omit [DecidableEq α] in
theorem reduced_nil : Reduced up [] := ⟨0, [], rfl, List.not_mem_nil⟩

/-! ## The stack -/

theorem push_name (h : x ≠ up) : push up stack x = stack ++ [x] := if_neg h

/-- A name and a step up leave the stack as it was. -/
theorem push_push_up (h : name ≠ up) : push up (push up stack name) up = stack := by
  rw [push_name h, push, if_pos rfl, List.getLast?_concat]
  dsimp only
  rw [if_neg h, List.dropLast_concat]

omit [DecidableEq α] in
/-- What the top of a reduced list can be: a list of steps up, or a name above a reduced list. -/
theorem Reduced.cases_top (h : Reduced up stack) :
    (∃ climb, stack = List.replicate climb up) ∨
      ∃ below top, stack = below ++ [top] ∧ top ≠ up ∧ Reduced up below := by
  obtain ⟨climb, names, rfl, hnames⟩ := h
  induction names using List.reverseRecOn with
  | nil => exact .inl ⟨climb, List.append_nil _⟩
  | append_singleton below top _ =>
      rw [List.mem_append, List.mem_singleton, not_or] at hnames
      refine .inr ⟨List.replicate climb up ++ below, top, ?_, fun heq => hnames.2 heq.symm,
        climb, below, rfl, hnames.1⟩
      rw [List.append_assoc]

/-- One element keeps a stack reduced. -/
theorem Reduced.push (h : Reduced up stack) : Reduced up (push up stack x) := by
  by_cases hx : x = up
  · subst hx
    rcases h.cases_top with ⟨climb, rfl⟩ | ⟨below, top, rfl, htop, hbelow⟩
    · refine ⟨climb + 1, [], ?_, List.not_mem_nil⟩
      rw [List.append_nil, List.replicate_succ', Ascent.push, if_pos rfl]
      cases climb with
      | zero => rfl
      | succ climb =>
          rw [List.replicate_succ', List.getLast?_concat]
          exact if_pos rfl
    · rw [← push_name htop, push_push_up htop]
      exact hbelow
  · obtain ⟨climb, names, rfl, hnames⟩ := h
    refine ⟨climb, names ++ [x], ?_, ?_⟩
    · rw [push_name hx, List.append_assoc]
    · rw [List.mem_append, List.mem_singleton, not_or]
      exact ⟨hnames, fun heq => hx heq.symm⟩

theorem Reduced.foldl_push (h : Reduced up stack) :
    Reduced up (path.foldl (Ascent.push up) stack) := by
  induction path generalizing stack with
  | nil => exact h
  | cons x path ih => exact ih h.push

theorem reduced_reduce : Reduced up (reduce up path) := reduced_nil.foldl_push

/-- What may stand on a stack is put there as it is. -/
theorem push_of_reduced (h : Reduced up (stack ++ [x])) : push up stack x = stack ++ [x] := by
  by_cases hx : x = up
  · subst hx
    rcases h.cases_top with ⟨climb, heq⟩ | ⟨below, top, heq, htop, -⟩
    · rw [push, if_pos rfl]
      cases hlast : stack.getLast? with
      | none =>
          rw [List.getLast?_eq_none_iff] at hlast
          rw [hlast]
          rfl
      | some top =>
          -- every element of a list of steps up is one
          have hmem : top ∈ List.replicate climb x := by
            rw [← heq]
            exact List.mem_append_left _ (List.mem_of_getLast? hlast)
          exact if_pos (List.eq_of_mem_replicate hmem)
    · obtain ⟨-, hx⟩ := List.append_inj' heq rfl
      exact absurd (List.singleton_inj.1 hx).symm htop
  · exact push_name hx

omit [DecidableEq α] in
/-- The beginning of a reduced list is reduced. -/
theorem Reduced.front (h : Reduced up (before ++ after)) : Reduced up before := by
  induction after using List.reverseRecOn with
  | nil => rwa [List.append_nil] at h
  | append_singleton after x ih =>
      rw [← List.append_assoc] at h
      rcases h.cases_top with ⟨climb, heq⟩ | ⟨below, top, heq, -, hbelow⟩
      · refine ih ⟨(before ++ after).length, [], ?_, List.not_mem_nil⟩
        rw [List.append_nil]
        refine List.eq_replicate_of_mem fun y hy => ?_
        have hmem : y ∈ List.replicate climb up := by
          rw [← heq]
          exact List.mem_append_left _ hy
        exact List.eq_of_mem_replicate hmem
      · obtain ⟨hfront, -⟩ := List.append_inj' heq rfl
        exact ih (hfront ▸ hbelow)

theorem foldl_push_of_reduced (h : Reduced up (stack ++ path)) :
    path.foldl (push up) stack = stack ++ path := by
  induction path generalizing stack with
  | nil => exact (List.append_nil stack).symm
  | cons x path ih =>
      have hsplit : stack ++ x :: path = stack ++ [x] ++ path := by
        rw [List.append_assoc, List.singleton_append]
      rw [hsplit] at h ⊢
      rw [List.foldl_cons, push_of_reduced h.front]
      exact ih h

/-- A reduced list is its own normal form. -/
theorem reduce_of_reduced (h : Reduced up path) : reduce up path = path := foldl_push_of_reduced h

/-- Nothing new is left on the stack. -/
theorem mem_of_mem_foldl_push (h : x ∈ path.foldl (push up) stack) : x ∈ stack ∨ x ∈ path := by
  induction path generalizing stack with
  | nil => exact .inl h
  | cons y path ih =>
      rcases ih h with hpush | hpath
      · have hin : x ∈ stack ++ [y] := by
          unfold push at hpush
          split at hpush
          · rename_i hy
            subst hy
            split at hpush
            · exact List.mem_append_right _ hpush
            · split at hpush
              · exact hpush
              · exact List.mem_append_left _ (List.dropLast_subset _ hpush)
          · exact hpush
        rcases List.mem_append.1 hin with hstack | hy
        · exact .inl hstack
        · exact .inr (List.mem_singleton.1 hy ▸ List.mem_cons_self)
      · exact .inr (List.mem_cons_of_mem _ hpath)

theorem mem_of_mem_reduce (h : x ∈ reduce up path) : x ∈ path :=
  (mem_of_mem_foldl_push h).resolve_left List.not_mem_nil

/-! ## Cancellation -/

omit [DecidableEq α] in
theorem Cancels.append_right (h : Cancels up path path') (after : List α) :
    Cancels up (path ++ after) (path' ++ after) := by
  obtain ⟨before, rest, hname⟩ := h
  rw [List.append_assoc, List.append_assoc]
  exact .step before (rest ++ after) hname

/-- One element on a reduced stack cancels at most once. -/
theorem cancels_push (h : Reduced up stack) :
    Relation.ReflTransGen (Cancels up) (stack ++ [x]) (push up stack x) := by
  by_cases hx : x = up
  · subst hx
    rcases h.cases_top with ⟨climb, rfl⟩ | ⟨below, top, rfl, htop, -⟩
    · rw [push_of_reduced ⟨climb + 1, [], ?_, List.not_mem_nil⟩]
      rw [List.append_nil, List.replicate_succ']
    · rw [← push_name htop, push_push_up htop, push_name htop, List.append_assoc]
      have hstep : Cancels x (below ++ [top, x]) (below ++ []) := .step below [] htop
      rw [List.append_nil] at hstep
      exact .single hstep
  · rw [push_name hx]

theorem cancels_foldl_push (h : Reduced up stack) :
    Relation.ReflTransGen (Cancels up) (stack ++ path) (path.foldl (push up) stack) := by
  induction path generalizing stack with
  | nil => rw [List.append_nil]; rfl
  | cons x path ih =>
      have hsplit : stack ++ x :: path = stack ++ [x] ++ path := by
        rw [List.append_assoc, List.singleton_append]
      rw [hsplit, List.foldl_cons]
      refine .trans ?_ (ih h.push)
      exact (cancels_push h).lift (fun front => front ++ path) fun _ _ hstep =>
        hstep.append_right path

/-- A list cancels to its normal form. -/
theorem cancels_reduce : Relation.ReflTransGen (Cancels up) path (reduce up path) :=
  cancels_foldl_push reduced_nil

/-- Cancellation keeps the normal form. -/
theorem Cancels.reduce_eq (h : Cancels up path path') : reduce up path = reduce up path' := by
  obtain ⟨before, after, hname⟩ := h
  rw [reduce, reduce, List.foldl_append, List.foldl_append, List.foldl_cons, List.foldl_cons,
    push_push_up hname]

/-- Two lists have one normal form when cancellation relates them, and only then. -/
theorem reduce_eq_iff :
    reduce up path = reduce up path' ↔ Relation.EqvGen (Cancels up) path path' := by
  constructor
  · intro h
    have hto : ∀ path : List α, Relation.EqvGen (Cancels up) path (reduce up path) :=
      fun _ => Relation.EqvGen.reflTransGen_le_eqvGen (r := Cancels up) _ _ cancels_reduce
    exact .trans _ _ _ (hto path) (h ▸ .symm _ _ (hto path'))
  · intro h
    induction h with
    | rel _ _ hstep => exact hstep.reduce_eq
    | refl => rfl
    | symm _ _ _ ih => exact ih.symm
    | trans _ _ _ _ _ ih ih' => exact ih.trans ih'

end Ascent
end Superi

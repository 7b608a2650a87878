import Mathlib

/-!
# Digraph — finite directed graphs given by successor lists

A graph is a successor list for every vertex, empty outside a finite support.  The module has the
two things an editable acyclic graph rests on: depth-first search decides reachability, and an edge
whose target does not reach its source closes no cycle.
-/

namespace Superi
namespace Digraph

open Relation

variable {α : Type*}

/-! ## Acyclic relations -/

/-- No vertex is reached from itself along at least one edge. -/
def Acyclic (r : α → α → Prop) : Prop :=
  ∀ a, ¬ TransGen r a a

theorem Acyclic.mono {r s : α → α → Prop} (h : Acyclic s) (hsub : ∀ a b, r a b → s a b) :
    Acyclic r := fun a hcycle => h a (TransGen.mono hsub _ _ hcycle)

/-- A walk in a graph with one more edge avoids the edge, or goes on from its target without it. -/
theorem transGen_insert {r s : α → α → Prop} {x y a b : α}
    (hsub : ∀ a b, s a b → r a b ∨ (a = x ∧ b = y)) (h : TransGen s a b) :
    TransGen r a b ∨ (ReflTransGen s a x ∧ ReflTransGen r y b) := by
  induction h with
  | single hab =>
      rcases hsub _ _ hab with hr | ⟨rfl, rfl⟩
      · exact .inl (.single hr)
      · exact .inr ⟨.refl, .refl⟩
  | @tail b c hab hbc ih =>
      rcases hsub _ _ hbc with hr | ⟨rfl, rfl⟩
      · exact ih.imp (·.tail hr) fun h => ⟨h.1, h.2.tail hr⟩
      · exact .inr ⟨hab.to_reflTransGen, .refl⟩

/-- A new edge from `x` to `y` closes no cycle if `y` does not reach `x`. -/
theorem Acyclic.insert {r s : α → α → Prop} {x y : α} (h : Acyclic r)
    (hsub : ∀ a b, s a b → r a b ∨ (a = x ∧ b = y)) (hback : ¬ ReflTransGen r y x) :
    Acyclic s := by
  -- what `y` reaches without the edge is closed under the larger graph
  have hclosed : ∀ a b, ReflTransGen r y a → ReflTransGen s a b → ReflTransGen r y b := by
    intro a b hya hab
    induction hab with
    | refl => exact hya
    | tail _ hbc ih =>
        rcases hsub _ _ hbc with hr | ⟨rfl, -⟩
        · exact ih.tail hr
        · exact absurd ih hback
  intro a hcycle
  rcases transGen_insert hsub hcycle with hr | ⟨hax, hya⟩
  · exact h a hr
  · exact hback (hclosed a x hya hax)

/-- Changing the edges that leave `x` closes a cycle only through `x`. -/
theorem Acyclic.change {r s : α → α → Prop} {x : α} (h : Acyclic r)
    (hsub : ∀ a b, s a b → r a b ∨ a = x) (hself : ¬ TransGen s x x) : Acyclic s := by
  -- a walk avoids `x`, or goes on from it
  have hwalk : ∀ a b, TransGen s a b →
      TransGen r a b ∨ (ReflTransGen s a x ∧ TransGen s x b) := by
    intro a b hab
    induction hab with
    | single hab =>
        rcases hsub _ _ hab with hr | rfl
        · exact .inl (.single hr)
        · exact .inr ⟨.refl, .single hab⟩
    | tail hab hbc ih =>
        rcases ih with hr | ⟨hax, hxb⟩
        · rcases hsub _ _ hbc with hr' | rfl
          · exact .inl (hr.tail hr')
          · exact .inr ⟨hab.to_reflTransGen, .single hbc⟩
        · exact .inr ⟨hax, hxb.tail hbc⟩
  intro a hcycle
  rcases hwalk a a hcycle with hr | ⟨hax, hxa⟩
  · exact h a hr
  · exact hself (hxa.trans_left hax)

/-- In a nonempty finite set some vertex has no predecessor inside the set. -/
theorem Acyclic.exists_source {r : α → α → Prop} (h : Acyclic r) (vertices : Finset α)
    (hne : vertices.Nonempty) : ∃ b ∈ vertices, ∀ a ∈ vertices, ¬ r a b := by
  classical
  have : IsTrans vertices fun a b => TransGen r a.1 b.1 := ⟨fun _ _ _ => TransGen.trans⟩
  have : Std.Irrefl fun a b : vertices => TransGen r a.1 b.1 := ⟨fun a => h a.1⟩
  have hwf := Finite.wellFounded_of_trans_of_irrefl fun a b : vertices => TransGen r a.1 b.1
  obtain ⟨b, -, hmin⟩ := hwf.has_min Set.univ ⟨⟨hne.choose, hne.choose_spec⟩, trivial⟩
  exact ⟨b.1, b.2, fun a ha hab => hmin ⟨a, ha⟩ trivial (.single hab)⟩

/-! ## Finite graphs -/

/-- Successor lists that are empty outside a finite set. -/
structure FiniteDigraph (α : Type*) where
  succ : α → List α
  support : Finset α
  succ_eq_nil : ∀ a, a ∉ support → succ a = []

namespace FiniteDigraph

variable (g : FiniteDigraph α)

def Adj (a b : α) : Prop := b ∈ g.succ a

def Reaches : α → α → Prop := ReflTransGen g.Adj

variable [DecidableEq α]

/-- What a search still has to look at: the pending vertices, and the successors of everything not
visited. -/
def workload (pending : List α) (visited : Finset α) : Nat :=
  pending.length + ∑ a ∈ g.support \ visited, (1 + (g.succ a).length)

theorem workload_visit {a : α} {pending : List α} {visited : Finset α} (hnew : a ∉ visited) :
    g.workload (g.succ a ++ pending) (insert a visited) < g.workload (a :: pending) visited := by
  simp only [workload, List.length_append, List.length_cons]
  by_cases hmem : a ∈ g.support
  · have hin : a ∈ g.support \ visited := Finset.mem_sdiff.2 ⟨hmem, hnew⟩
    have hsum := Finset.add_sum_erase _ (fun b => 1 + (g.succ b).length) hin
    rw [← Finset.sdiff_insert] at hsum
    omega
  · have hsame : g.support \ insert a visited = g.support \ visited := by
      rw [Finset.sdiff_insert, Finset.erase_eq_of_notMem]
      exact fun h => hmem (Finset.mem_sdiff.1 h).1
    rw [hsame, g.succ_eq_nil a hmem, List.length_nil]
    omega

/-- Depth-first search for `target`.  The head of `pending` is the top of the stack. -/
def search (target : α) (pending : List α) (visited : Finset α) : Bool :=
  match pending with
  | [] => false
  | a :: rest =>
      if a = target then true
      else if a ∈ visited then search target rest visited
      else search target (g.succ a ++ rest) (insert a visited)
termination_by g.workload pending visited
decreasing_by
  · simp [workload]
  · exact g.workload_visit ‹_›

/-- Everything a depth-first walk from the pending vertices visits. -/
def collect (pending : List α) (visited : Finset α) : Finset α :=
  match pending with
  | [] => visited
  | a :: rest =>
      if a ∈ visited then collect rest visited
      else collect (g.succ a ++ rest) (insert a visited)
termination_by g.workload pending visited
decreasing_by
  · simp [workload]
  · exact g.workload_visit ‹_›

variable {g}

theorem exists_reaches_of_search {target : α} {pending : List α} {visited : Finset α}
    (h : g.search target pending visited = true) : ∃ a ∈ pending, g.Reaches a target := by
  fun_induction search g target pending visited with
  | case1 => cases h
  | case2 => exact ⟨_, List.mem_cons_self, .refl⟩
  | case3 visited a rest _ _ ih =>
      obtain ⟨b, hb, hreach⟩ := ih h
      exact ⟨b, List.mem_cons_of_mem _ hb, hreach⟩
  | case4 visited a rest _ _ ih =>
      obtain ⟨b, hb, hreach⟩ := ih h
      rcases List.mem_append.1 hb with hsucc | hrest
      · exact ⟨a, List.mem_cons_self, .head hsucc hreach⟩
      · exact ⟨b, List.mem_cons_of_mem _ hrest, hreach⟩

/-- A search that fails has seen everything: nothing it visited or was to visit reaches the
target. -/
theorem not_reaches_of_search {target : α} {pending : List α} {visited : Finset α}
    (hclosed : ∀ a ∈ visited, a ≠ target ∧ ∀ b, g.Adj a b → b ∈ visited ∨ b ∈ pending)
    (h : g.search target pending visited = false) :
    ∀ a, a ∈ visited ∨ a ∈ pending → ¬ g.Reaches a target := by
  fun_induction search g target pending visited with
  | case1 visited =>
      intro a ha hreach
      have hall : a ∈ visited := ha.resolve_right List.not_mem_nil
      -- the visited vertices are closed under edges, so the target is one of them
      have hend : ∀ b, ReflTransGen g.Adj a b → b ∈ visited := by
        intro b hab
        induction hab with
        | refl => exact hall
        | tail _ hbc ih => exact ((hclosed _ ih).2 _ hbc).resolve_right List.not_mem_nil
      exact (hclosed target (hend target hreach)).1 rfl
  | case2 => cases h
  | case3 visited a rest _ hvisited ih =>
      intro b hb
      refine ih (fun c hc => ⟨(hclosed c hc).1, fun d hd => ?_⟩) h b ?_
      · rcases (hclosed c hc).2 d hd with hd | hd
        · exact .inl hd
        · rcases List.mem_cons.1 hd with rfl | hd
          · exact .inl hvisited
          · exact .inr hd
      · rcases hb with hb | hb
        · exact .inl hb
        · rcases List.mem_cons.1 hb with rfl | hb
          · exact .inl hvisited
          · exact .inr hb
  | case4 visited a rest hne hnew ih =>
      intro b hb
      refine ih (fun c hc => ?_) h b ?_
      · rcases Finset.mem_insert.1 hc with rfl | hc
        · exact ⟨hne, fun d hd => .inr (List.mem_append_left _ hd)⟩
        · refine ⟨(hclosed c hc).1, fun d hd => ?_⟩
          rcases (hclosed c hc).2 d hd with hd | hd
          · exact .inl (Finset.mem_insert_of_mem hd)
          · rcases List.mem_cons.1 hd with rfl | hd
            · exact .inl (Finset.mem_insert_self _ _)
            · exact .inr (List.mem_append_right _ hd)
      · rcases hb with hb | hb
        · exact .inl (Finset.mem_insert_of_mem hb)
        · rcases List.mem_cons.1 hb with rfl | hb
          · exact .inl (Finset.mem_insert_self _ _)
          · exact .inr (List.mem_append_right _ hb)

/-- Depth-first search decides whether one of the pending vertices reaches the target. -/
theorem search_eq_true_iff {target : α} {pending : List α} :
    g.search target pending ∅ = true ↔ ∃ a ∈ pending, g.Reaches a target := by
  refine ⟨exists_reaches_of_search, fun ⟨a, ha, hreach⟩ => ?_⟩
  by_contra hfail
  exact not_reaches_of_search (by simp) (Bool.eq_false_iff.2 hfail) a (.inr ha) hreach

end FiniteDigraph

end Digraph
end Superi

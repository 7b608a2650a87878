import Superi.Lib.Digraph
import Superi.Lib.Keyed

/-!
# Kahn — listing a graph in dependency order

The algorithm keeps the number of unlisted predecessors of every vertex and lists, as long as there
is one, the smallest vertex without any.  On an acyclic graph it lists every vertex exactly once,
behind all its predecessors.
-/

namespace Superi
namespace Kahn

open Digraph Keyed

/-! ## The algorithm -/

structure State (α : Type*) [Ord α] where
  indegree : Std.ExtTreeMap α Nat
  ready : Std.ExtTreeSet α
  order : List α

variable {α : Type*} [Ord α] [Std.TransOrd α]

/-- Account for one edge into `b` whose source was listed. -/
def release (state : State α) (b : α) : State α :=
  match state.indegree[b]? with
  | none => state
  | some degree =>
      { state with
        indegree := state.indegree.insert b (degree - 1)
        ready := if degree - 1 = 0 then state.ready.insert b else state.ready }

/-- List the smallest ready vertex. -/
def take (succ : α → List α) (state : State α) : Option (State α) :=
  state.ready.min?.map fun a =>
    (succ a).foldl release
      { state with ready := state.ready.erase a, order := state.order ++ [a] }

/-- List ready vertices until there is none, at most `fuel` times. -/
def run (succ : α → List α) : Nat → State α → State α
  | 0, state => state
  | fuel + 1, state =>
      match take succ state with
      | none => state
      | some next => run succ fuel next

/-! ## One vertex -/

@[simp] theorem release_order (state : State α) (b : α) : (release state b).order = state.order := by
  unfold release
  split <;> rfl

@[simp] theorem foldl_release_order (released : List α) (state : State α) :
    (released.foldl release state).order = state.order := by
  induction released generalizing state with
  | nil => rfl
  | cons b rest ih => rw [List.foldl_cons, ih, release_order]

variable [DecidableEq α] [Std.LawfulEqOrd α]

theorem release_indegree {state : State α} {b : α} (c : α) :
    (release state b).indegree[c]? =
      if c = b then state.indegree[c]?.map (· - 1) else state.indegree[c]? := by
  unfold release
  split
  · rename_i hnone
    by_cases hcb : c = b
    · simp [hcb, hnone]
    · simp [hcb]
  · rename_i degree hsome
    rw [getElem?_insert_eq]
    by_cases hcb : c = b
    · simp [hcb, hsome]
    · simp [hcb]

omit [DecidableEq α] in
theorem mem_release_ready {state : State α} {b c : α} {degree : Nat}
    (hdegree : state.indegree[b]? = some degree) :
    c ∈ (release state b).ready ↔ c ∈ state.ready ∨ (c = b ∧ degree - 1 = 0) := by
  simp only [release, hdegree]
  split
  · rename_i hzero
    rw [mem_insert_eq, or_comm]
    simp [hzero]
  · rename_i hpos
    simp [hpos]

/-- Releasing edges lowers each degree by the number of edges released, and makes ready exactly the
vertices whose last edges these were. -/
theorem foldl_release {released : List α} :
    ∀ {state : State α}, (∀ c ∈ released, ∃ degree, state.indegree[c]? = some degree ∧
        released.count c ≤ degree) →
      (∀ c, (released.foldl release state).indegree[c]? =
        state.indegree[c]?.map (· - released.count c)) ∧
      ∀ c, c ∈ (released.foldl release state).ready ↔
        c ∈ state.ready ∨ (c ∈ released ∧ state.indegree[c]? = some (released.count c)) := by
  induction released with
  | nil => intro state _; simp
  | cons b rest ih =>
      intro state hdegrees
      obtain ⟨degree, hdegree, hle⟩ := hdegrees b List.mem_cons_self
      rw [List.count_cons_self] at hle
      have hrest : ∀ c ∈ rest, ∃ degree, (release state b).indegree[c]? = some degree ∧
          rest.count c ≤ degree := by
        intro c hc
        obtain ⟨degree', hdegree', hle'⟩ := hdegrees c (List.mem_cons_of_mem _ hc)
        rw [release_indegree, hdegree']
        by_cases hcb : c = b
        · rw [hcb, List.count_cons_self] at hle'
          exact ⟨degree' - 1, by simp [hcb], by rw [hcb]; omega⟩
        · rw [List.count_cons_of_ne (Ne.symm hcb)] at hle'
          exact ⟨degree', by simp [hcb], hle'⟩
      obtain ⟨hindegree, hready⟩ := ih hrest
      rw [List.foldl_cons]
      refine ⟨fun c => ?_, fun c => ?_⟩
      · rw [hindegree, release_indegree]
        by_cases hcb : c = b
        · rw [if_pos hcb, hcb, List.count_cons_self, hdegree]
          simp only [Option.map_some, Option.some.injEq]
          omega
        · rw [if_neg hcb, List.count_cons_of_ne (Ne.symm hcb)]
      · rw [hready, mem_release_ready hdegree, release_indegree, List.mem_cons]
        by_cases hcb : c = b
        · subst hcb
          rw [if_pos rfl, hdegree, List.count_cons_self]
          have hcount : c ∈ rest ↔ 0 < rest.count c := List.count_pos_iff.symm
          simp only [Option.map_some, Option.some.injEq, true_and, true_or, hcount]
          constructor
          · rintro ((h | h) | ⟨h, h'⟩)
            · exact .inl h
            · exact .inr (by omega)
            · exact .inr (by omega)
          · rintro (h | h)
            · exact .inl (.inl h)
            · by_cases hpos : 0 < rest.count c
              · exact .inr ⟨hpos, by omega⟩
              · exact .inl (.inr (by omega))
        · rw [if_neg hcb, List.count_cons_of_ne (Ne.symm hcb)]
          simp [hcb]

/-! ## The invariant -/

/-- What holds whenever the loop looks for a ready vertex. -/
structure Inv (succ : α → List α) (vertices : Finset α) (state : State α) : Prop where
  nodup : state.order.Nodup
  listed : ∀ a ∈ state.order, a ∈ vertices
  indegree : ∀ a ∈ vertices, state.indegree[a]? =
    some (∑ b ∈ vertices \ state.order.toFinset, (succ b).count a)
  ready : ∀ a, a ∈ state.ready ↔ a ∈ vertices ∧ a ∉ state.order ∧
    ∀ b ∈ vertices, b ∉ state.order → a ∉ succ b
  sorted : state.order.Pairwise fun a b => a ∉ succ b
  closed : ∀ a ∈ state.order, ∀ b ∈ vertices, b ∉ state.order → a ∉ succ b

variable {succ : α → List α} {vertices : Finset α} {state : State α}

/-- Listing a ready vertex keeps the invariant. -/
theorem Inv.take (hsucc : ∀ a ∈ vertices, ∀ b ∈ succ a, b ∈ vertices)
    (hacyclic : Acyclic fun a b => a ∈ vertices ∧ b ∈ succ a) (h : Inv succ vertices state)
    {next : State α} (htake : take succ state = some next) :
    Inv succ vertices next ∧ next.order.length = state.order.length + 1 := by
  obtain ⟨a, hmin, rfl⟩ := Option.map_eq_some_iff.1 htake
  have hmem : a ∈ state.ready := Std.ExtTreeSet.min?_mem hmin
  obtain ⟨ha, hnew, hsources⟩ := (h.ready a).1 hmem
  -- the sum over the unlisted vertices loses the share of `a`
  have hsplit : ∀ c, ∑ b ∈ vertices \ state.order.toFinset, (succ b).count c =
      (succ a).count c + ∑ b ∈ vertices \ (state.order ++ [a]).toFinset, (succ b).count c := by
    intro c
    have hin : a ∈ vertices \ state.order.toFinset := by simp [ha, hnew]
    rw [← Finset.add_sum_erase _ _ hin]
    congr 2
    ext b
    simp only [Finset.mem_erase, Finset.mem_sdiff, List.mem_toFinset, List.mem_append,
      List.mem_singleton]
    tauto
  have hself : a ∉ succ a := fun hloop => hacyclic a (.single ⟨ha, hloop⟩)
  have hlisted : ∀ b ∈ state.order, b ∉ succ a := fun b hb => h.closed b hb a ha hnew
  let taken : State α := { state with ready := state.ready.erase a, order := state.order ++ [a] }
  have hdegrees : ∀ c ∈ succ a, ∃ degree, taken.indegree[c]? = some degree ∧
      (succ a).count c ≤ degree := fun c hc =>
    ⟨_, h.indegree c (hsucc a ha c hc), by rw [hsplit c]; exact Nat.le_add_right _ _⟩
  obtain ⟨hindegree, hready⟩ := foldl_release hdegrees
  refine ⟨⟨?_, ?_, ?_, ?_, ?_, ?_⟩, by simp⟩ <;> simp only [foldl_release_order]
  · exact List.nodup_append.2 ⟨h.nodup, List.nodup_singleton a,
      fun b hb c hc hbc => hnew (by rwa [← List.mem_singleton.1 hc, ← hbc])⟩
  · simpa [or_imp, forall_and] using ⟨h.listed, ha⟩
  · intro c hc
    rw [hindegree, h.indegree c hc, hsplit c]
    simp
  · intro c
    rw [hready, mem_erase_eq]
    simp only [List.mem_append, List.mem_singleton, not_or]
    constructor
    · rintro (⟨hne, hc⟩ | ⟨hc, hlast⟩)
      · obtain ⟨hc, hcnew, hcsources⟩ := (h.ready c).1 hc
        exact ⟨hc, ⟨hcnew, hne⟩, fun b hb hbnew => hcsources b hb hbnew.1⟩
      · have hcv := hsucc a ha c hc
        rw [h.indegree c hcv, hsplit c, Option.some.injEq, Nat.add_eq_left,
          Finset.sum_eq_zero_iff] at hlast
        refine ⟨hcv, ⟨fun hmem => hlisted c hmem hc, fun heq => hself (heq ▸ hc)⟩, ?_⟩
        intro b hb hbnew
        refine List.count_eq_zero.1 (hlast b ?_)
        simpa [hb, and_comm] using hbnew
    · rintro ⟨hc, ⟨hcnew, hne⟩, hcsources⟩
      by_cases hca : c ∈ succ a
      · refine .inr ⟨hca, ?_⟩
        rw [h.indegree c hc, hsplit c, Option.some.injEq, Nat.add_eq_left]
        refine Finset.sum_eq_zero fun b hb => List.count_eq_zero.2 ?_
        simp only [Finset.mem_sdiff, List.mem_toFinset, List.mem_append, List.mem_singleton,
          not_or] at hb
        exact hcsources b hb.1 hb.2
      · refine .inl ⟨hne, (h.ready c).2 ⟨hc, hcnew, fun b hb hbnew => ?_⟩⟩
        by_cases hba : b = a
        · rwa [hba]
        · exact hcsources b hb ⟨hbnew, hba⟩
  · refine List.pairwise_append.2 ⟨h.sorted, List.pairwise_singleton _ _, ?_⟩
    intro b hb c hc
    rw [List.mem_singleton.1 hc]
    exact hlisted b hb
  · intro c hc b hb hbnew
    rw [List.mem_append, not_or, List.mem_singleton] at hbnew
    rcases List.mem_append.1 hc with hc | hc
    · exact h.closed c hc b hb hbnew.1
    · rw [List.mem_singleton.1 hc]
      exact hsources b hb hbnew.1

/-! ## The whole run -/

omit [Std.LawfulEqOrd α] in
/-- As long as a vertex is unlisted some vertex is ready. -/
theorem Inv.exists_ready (hacyclic : Acyclic fun a b => a ∈ vertices ∧ b ∈ succ a)
    (h : Inv succ vertices state) {a : α} (ha : a ∈ vertices) (hnew : a ∉ state.order) :
    state.ready.min? ≠ none := by
  obtain ⟨b, hb, hsource⟩ := hacyclic.exists_source (vertices \ state.order.toFinset)
    ⟨a, by simp [ha, hnew]⟩
  simp only [Finset.mem_sdiff, List.mem_toFinset, not_and] at hb hsource
  have hready : b ∈ state.ready := (h.ready b).2 ⟨hb.1, hb.2, fun c hc hcnew hbc =>
    hsource c ⟨hc, hcnew⟩ hc hbc⟩
  intro hnone
  rw [Std.ExtTreeSet.min?_eq_none_iff] at hnone
  simp [hnone] at hready

/-- A list of exactly the given vertices, each behind all its predecessors. -/
structure Sorted (succ : α → List α) (vertices : Finset α) (order : List α) : Prop where
  nodup : order.Nodup
  mem_iff : ∀ a, a ∈ order ↔ a ∈ vertices
  behind : order.Pairwise fun a b => a ∉ succ b

/-- With enough fuel the loop ends because nothing is ready, and has then listed every vertex. -/
theorem Inv.run (hsucc : ∀ a ∈ vertices, ∀ b ∈ succ a, b ∈ vertices)
    (hacyclic : Acyclic fun a b => a ∈ vertices ∧ b ∈ succ a) :
    ∀ {fuel : Nat} {state : State α}, Inv succ vertices state →
      vertices.card ≤ state.order.length + fuel →
      (run succ fuel state).ready.min? = none ∧
        Sorted succ vertices (run succ fuel state).order := by
  -- a state in which nothing is ready has everything listed
  have hdone : ∀ {state : State α}, Inv succ vertices state → state.ready.min? = none →
      state.ready.min? = none ∧ Sorted succ vertices state.order := by
    intro state h hnone
    refine ⟨hnone, h.nodup, fun a => ⟨h.listed a, fun ha => ?_⟩, h.sorted⟩
    by_contra hnew
    exact h.exists_ready hacyclic ha hnew hnone
  intro fuel
  induction fuel with
  | zero =>
      intro state h hcard
      refine hdone h ?_
      -- every vertex is listed, so none is ready
      have hsub : state.order.toFinset ⊆ vertices := fun a ha => h.listed a (by simpa using ha)
      have hall := Finset.eq_of_subset_of_card_le hsub (by
        rwa [List.toFinset_card_of_nodup h.nodup])
      rw [Std.ExtTreeSet.min?_eq_none_iff]
      refine Std.ExtTreeSet.ext_mem fun a => ?_
      simp only [Std.ExtTreeSet.not_mem_empty, iff_false]
      intro hready
      obtain ⟨ha, hnew, -⟩ := (h.ready a).1 hready
      rw [← hall, List.mem_toFinset] at ha
      exact hnew ha
  | succ fuel ih =>
      intro state h hcard
      rw [Kahn.run]
      cases htake : Kahn.take succ state with
      | none => exact hdone h (Option.map_eq_none_iff.1 htake)
      | some next =>
          obtain ⟨hnext, hlength⟩ := h.take hsucc hacyclic htake
          exact ih hnext (by omega)

end Kahn
end Superi

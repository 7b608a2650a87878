import Superi.Lib.Kahn

/-!
# Incidence — keyed graphs with stored adjacency

Nodes and edges are kept in key order, and beside them the edges that enter and the edges that leave
each node.  The stored adjacency is the edge map grouped by an end; as long as it is, walks along it
decide reachability, and the order that lists a node once nothing unlisted leads to it is complete.
-/

namespace Superi

open Keyed Digraph Relation

/-- The identity and the two ends of an edge. -/
class Route (E : Type) (ν ε : outParam Type) where
  ident : E → ε
  source : E → ν
  destination : E → ν

structure Incidence (ν ε N E : Type) [Ord ν] [Ord ε] where
  nodes : Std.ExtTreeMap ν N
  edges : Std.ExtTreeMap ε E
  incoming : Std.ExtTreeMap ν (Std.ExtTreeSet ε)
  outgoing : Std.ExtTreeMap ν (Std.ExtTreeSet ε)

namespace Incidence

variable {ν ε N E : Type} [Ord ν] [Std.TransOrd ν] [Ord ε] [Std.TransOrd ε]

/-! ## Operations -/

def empty : Incidence ν ε N E := ⟨∅, ∅, ∅, ∅⟩

/-- Store a node without edges. -/
def place (store : Incidence ν ε N E) (id : ν) (node : N) : Incidence ν ε N E where
  nodes := store.nodes.insert id node
  edges := store.edges
  incoming := store.incoming.insert id ∅
  outgoing := store.outgoing.insert id ∅

/-- Forget a node and its entries. -/
def discard (store : Incidence ν ε N E) (id : ν) : Incidence ν ε N E where
  nodes := store.nodes.erase id
  edges := store.edges
  incoming := store.incoming.erase id
  outgoing := store.outgoing.erase id

/-- The stored edges a collection of adjacency lists at a node, in key order. -/
def listed (store : Incidence ν ε N E) (adjacency : Std.ExtTreeMap ν (Std.ExtTreeSet ε)) (id : ν) :
    List E :=
  match adjacency[id]? with
  | some ids => ids.toList.filterMap fun edgeId => store.edges[edgeId]?
  | none => []

theorem listed_eq_nil [DecidableEq ν] [Std.LawfulEqOrd ν] {store : Incidence ν ε N E}
    {adjacency : Std.ExtTreeMap ν (Std.ExtTreeSet ε)} {id : ν}
    (hid : id ∉ adjacency.keys.toFinset) : store.listed adjacency id = [] := by
  have hnone : adjacency[id]? = none := by simpa using hid
  simp [listed, hnone]

/-! ## Edges grouped by an end -/

/-- The adjacency has one entry for every node: the edges whose `key` is that node. -/
structure Groups (nodes : Std.ExtTreeMap ν N) (edges : Std.ExtTreeMap ε E) (key : E → ν)
    (adjacency : Std.ExtTreeMap ν (Std.ExtTreeSet ε)) : Prop where
  keys : ∀ id : ν, id ∈ adjacency ↔ id ∈ nodes
  mem_iff : ∀ (id : ν) (group : Std.ExtTreeSet ε), adjacency[id]? = some group →
    ∀ edgeId : ε, edgeId ∈ group ↔ ∃ edge, edges[edgeId]? = some edge ∧ key edge = id

namespace Groups

variable {nodes : Std.ExtTreeMap ν N} {edges : Std.ExtTreeMap ε E} {key : E → ν}
  {adjacency : Std.ExtTreeMap ν (Std.ExtTreeSet ε)}

theorem exists_group (h : Groups nodes edges key adjacency) {id : ν} (hid : id ∈ nodes) :
    ∃ group, adjacency[id]? = some group :=
  Option.isSome_iff_exists.1 (Std.ExtTreeMap.isSome_getElem?_iff_mem.2 ((h.keys id).2 hid))

theorem discard [DecidableEq ν] [Std.LawfulEqOrd ν] (h : Groups nodes edges key adjacency)
    (id : ν) : Groups (nodes.erase id) edges key (adjacency.erase id) where
  keys := fun other => by
    simp only [Std.ExtTreeMap.mem_erase, h.keys]
  mem_iff := by
    intro other group hgroup edgeId
    rw [getElem?_erase_eq] at hgroup
    split at hgroup
    · cases hgroup
    · exact h.mem_iff other group hgroup edgeId

theorem place [DecidableEq ν] [Std.LawfulEqOrd ν] (h : Groups nodes edges key adjacency)
    (hends : ∀ (edgeId : ε) (edge : E), edges[edgeId]? = some edge → key edge ∈ nodes) {id : ν}
    (hnew : id ∉ nodes) (node : N) :
    Groups (nodes.insert id node) edges key (adjacency.insert id ∅) where
  keys := fun other => by
    simp only [Std.ExtTreeMap.mem_insert, h.keys]
  mem_iff := by
    intro other group hgroup edgeId
    rw [getElem?_insert_eq] at hgroup
    split at hgroup
    · rename_i heq
      cases hgroup
      simp only [Std.ExtTreeSet.not_mem_empty, false_iff, not_exists, not_and]
      intro edge hedge hkey
      exact hnew (heq ▸ hkey ▸ hends edgeId edge hedge)
    · exact h.mem_iff other group hgroup edgeId

variable [DecidableEq ν] [Std.LawfulEqOrd ν] [DecidableEq ε] [Std.LawfulEqOrd ε]

theorem link (h : Groups nodes edges key adjacency) {id : ε} (hnew : id ∉ edges) (edge : E) :
    Groups nodes (edges.insert id edge) key
      (adjacency.modify (key edge) fun group => group.insert id) where
  keys := fun other => by
    rw [Std.ExtTreeMap.mem_modify, h.keys]
  mem_iff := by
    have hfresh : edges[id]? = none := Std.ExtTreeMap.getElem?_eq_none hnew
    intro other group hgroup edgeId
    rw [getElem?_modify_eq] at hgroup
    split at hgroup
    · rename_i heq
      obtain ⟨old, hold, rfl⟩ := Option.map_eq_some_iff.1 hgroup
      rw [mem_insert_eq, h.mem_iff other old hold, getElem?_insert_eq]
      by_cases hid : edgeId = id
      · simp [hid, heq]
      · simp [hid]
    · rename_i hne
      rw [h.mem_iff other group hgroup, getElem?_insert_eq]
      by_cases hid : edgeId = id
      · simpa [hid, hfresh] using Ne.symm hne
      · simp [hid]

theorem unlink (h : Groups nodes edges key adjacency) {id : ε} {edge : E}
    (hedge : edges[id]? = some edge) :
    Groups nodes (edges.erase id) key
      (adjacency.modify (key edge) fun group => group.erase id) where
  keys := fun other => by
    rw [Std.ExtTreeMap.mem_modify, h.keys]
  mem_iff := by
    intro other group hgroup edgeId
    rw [getElem?_modify_eq] at hgroup
    split at hgroup
    · obtain ⟨old, hold, rfl⟩ := Option.map_eq_some_iff.1 hgroup
      rw [mem_erase_eq, h.mem_iff other old hold, getElem?_erase_eq]
      by_cases hid : edgeId = id <;> simp [hid]
    · rename_i hne
      rw [h.mem_iff other group hgroup, getElem?_erase_eq]
      by_cases hid : edgeId = id
      · simpa [hid, hedge] using Ne.symm hne
      · simp [hid]

end Groups

/-! ## Routes -/

variable [Route E ν ε]

/-- Store an edge and list it at its ends. -/
def link (store : Incidence ν ε N E) (edge : E) : Incidence ν ε N E where
  nodes := store.nodes
  edges := store.edges.insert (Route.ident edge) edge
  outgoing := store.outgoing.modify (Route.source edge) fun ids => ids.insert (Route.ident edge)
  incoming := store.incoming.modify (Route.destination edge) fun ids =>
    ids.insert (Route.ident edge)

/-- Forget the edge stored under an identity. -/
def unlink (store : Incidence ν ε N E) (id : ε) (edge : E) : Incidence ν ε N E where
  nodes := store.nodes
  edges := store.edges.erase id
  outgoing := store.outgoing.modify (Route.source edge) fun ids => ids.erase id
  incoming := store.incoming.modify (Route.destination edge) fun ids => ids.erase id

/-- The edges into a node. -/
def entering (store : Incidence ν ε N E) (id : ν) : List E := store.listed store.incoming id

/-- The nodes one edge behind a node. -/
def predecessors (store : Incidence ν ε N E) (id : ν) : List ν :=
  (store.entering id).map Route.source

/-- The nodes one edge ahead of a node. -/
def successors (store : Incidence ν ε N E) (id : ν) : List ν :=
  (store.listed store.outgoing id).map Route.destination

section Walks

variable [DecidableEq ν] [Std.LawfulEqOrd ν]

/-- The walk along edges; the last edge pushed is popped first. -/
def forward (store : Incidence ν ε N E) : FiniteDigraph ν where
  succ := fun id => (store.successors id).reverse
  support := store.outgoing.keys.toFinset
  succ_eq_nil := fun id hid => by simp [successors, listed_eq_nil hid]

/-- The walk against edges. -/
def backward (store : Incidence ν ε N E) : FiniteDigraph ν where
  succ := fun id => (store.predecessors id).reverse
  support := store.incoming.keys.toFinset
  succ_eq_nil := fun id hid => by simp [predecessors, entering, listed_eq_nil hid]

end Walks

/-- The number of edges into every node, and the nodes that have none. -/
def orderStart (store : Incidence ν ε N E) : Kahn.State ν where
  indegree := store.incoming.map fun _ ids => ids.size
  ready := .ofList (store.incoming.toList.filterMap fun (id, ids) =>
    if ids.size = 0 then some id else none)
  order := []

/-- Nodes behind all their predecessors; among ready nodes the smallest comes first. -/
def order (store : Incidence ν ε N E) : List ν :=
  (Kahn.run store.successors store.nodes.size store.orderStart).order

/-! ## The invariant -/

section Invariant

variable [DecidableEq ν] [Std.LawfulEqOrd ν] [DecidableEq ε] [Std.LawfulEqOrd ε]
  {store : Incidence ν ε N E}

/-- Some stored edge leads from `a` to `b`. -/
def Precedes (store : Incidence ν ε N E) (a b : ν) : Prop :=
  ∃ (id : ε) (edge : E), store.edges[id]? = some edge ∧ Route.source edge = a ∧
    Route.destination edge = b

structure WellFormed (store : Incidence ν ε N E) : Prop where
  ids : ∀ (id : ε) (edge : E), store.edges[id]? = some edge → Route.ident edge = id
  sources : ∀ (id : ε) (edge : E), store.edges[id]? = some edge → Route.source edge ∈ store.nodes
  destinations : ∀ (id : ε) (edge : E), store.edges[id]? = some edge →
    Route.destination edge ∈ store.nodes
  incoming : Groups store.nodes store.edges Route.destination store.incoming
  outgoing : Groups store.nodes store.edges Route.source store.outgoing
  acyclic : Acyclic store.Precedes

omit [DecidableEq ν] [Std.LawfulEqOrd ν] [DecidableEq ε] [Std.LawfulEqOrd ε] in
theorem wellFormed_empty : (empty : Incidence ν ε N E).WellFormed where
  ids := by simp [empty]
  sources := by simp [empty]
  destinations := by simp [empty]
  incoming := ⟨by simp [empty], by simp [empty]⟩
  outgoing := ⟨by simp [empty], by simp [empty]⟩
  acyclic := by
    intro a hcycle
    obtain ⟨_, ⟨_, _, hedge, -⟩, -⟩ := TransGen.head'_iff.1 hcycle
    simp [empty] at hedge

omit [DecidableEq ν] [Std.LawfulEqOrd ν] [DecidableEq ε] [Route E ν ε] in
/-- Where an end owns the adjacency, it lists exactly the stored edges with that end. -/
theorem mem_listed_iff {key : E → ν} {adjacency : Std.ExtTreeMap ν (Std.ExtTreeSet ε)}
    (hgroups : Groups store.nodes store.edges key adjacency)
    (hends : ∀ (id : ε) (edge : E), store.edges[id]? = some edge → key edge ∈ store.nodes)
    {a : ν} {edge : E} :
    edge ∈ store.listed adjacency a ↔ ∃ id : ε, store.edges[id]? = some edge ∧ key edge = a := by
  unfold listed
  split
  · rename_i group hgroup
    simp only [List.mem_filterMap, Std.ExtTreeSet.mem_toList, hgroups.mem_iff a group hgroup]
    constructor
    · rintro ⟨id, ⟨found, hfound, hkey⟩, hedge⟩
      cases hfound.symm.trans hedge
      exact ⟨id, hedge, hkey⟩
    · rintro ⟨id, hedge, hkey⟩
      exact ⟨id, ⟨edge, hedge, hkey⟩, hedge⟩
  · rename_i hnone
    simp only [List.not_mem_nil, false_iff]
    rintro ⟨id, hedge, rfl⟩
    obtain ⟨group, hgroup⟩ := hgroups.exists_group (hends id edge hedge)
    rw [hnone] at hgroup
    cases hgroup

omit [DecidableEq ν] [Std.LawfulEqOrd ν] [DecidableEq ε] in
theorem mem_entering_iff (h : store.WellFormed) {a : ν} {edge : E} :
    edge ∈ store.entering a ↔
      ∃ id : ε, store.edges[id]? = some edge ∧ Route.destination edge = a :=
  mem_listed_iff h.incoming h.destinations

omit [DecidableEq ν] [Std.LawfulEqOrd ν] [DecidableEq ε] in
theorem mem_predecessors_iff (h : store.WellFormed) {a b : ν} :
    b ∈ store.predecessors a ↔ store.Precedes b a := by
  simp only [predecessors, List.mem_map, mem_entering_iff h, Precedes]
  constructor
  · rintro ⟨edge, ⟨id, hedge, hend⟩, hsource⟩
    exact ⟨id, edge, hedge, hsource, hend⟩
  · rintro ⟨id, edge, hedge, hsource, hend⟩
    exact ⟨edge, ⟨id, hedge, hend⟩, hsource⟩

omit [DecidableEq ν] [Std.LawfulEqOrd ν] [DecidableEq ε] in
theorem mem_successors_iff (h : store.WellFormed) {a b : ν} :
    b ∈ store.successors a ↔ store.Precedes a b := by
  simp only [successors, List.mem_map, mem_listed_iff h.outgoing h.sources, Precedes]
  constructor
  · rintro ⟨edge, ⟨id, hedge, hsource⟩, hend⟩
    exact ⟨id, edge, hedge, hsource, hend⟩
  · rintro ⟨id, edge, hedge, hsource, hend⟩
    exact ⟨edge, ⟨id, hedge, hsource⟩, hend⟩

omit [DecidableEq ε] in
theorem forward_reaches_iff (h : store.WellFormed) {a b : ν} :
    store.forward.search b [a] ∅ = true ↔ ReflTransGen store.Precedes a b := by
  have hadj : store.forward.Adj = store.Precedes := by
    funext x y
    simp only [FiniteDigraph.Adj, forward, List.mem_reverse, mem_successors_iff h]
  simp only [FiniteDigraph.search_eq_true_iff, List.mem_singleton, exists_eq_left,
    FiniteDigraph.Reaches, hadj]

/-! ## The operations keep it -/

omit [DecidableEq ε] [Std.LawfulEqOrd ε] in
theorem WellFormed.place (h : store.WellFormed) {id : ν} (hnew : id ∉ store.nodes) (node : N) :
    (store.place id node).WellFormed := by
  have hkeep : ∀ other, other ∈ store.nodes → other ∈ store.nodes.insert id node :=
    fun other hother => Std.ExtTreeMap.mem_insert.2 (.inr hother)
  exact {
    ids := h.ids
    sources := fun edgeId edge hedge => hkeep _ (h.sources edgeId edge hedge)
    destinations := fun edgeId edge hedge => hkeep _ (h.destinations edgeId edge hedge)
    incoming := h.incoming.place h.destinations hnew node
    outgoing := h.outgoing.place h.sources hnew node
    acyclic := h.acyclic }

omit [DecidableEq ε] [Std.LawfulEqOrd ε] in
theorem WellFormed.discard (h : store.WellFormed) {id : ν}
    (hin : ∀ (edgeId : ε) (edge : E), store.edges[edgeId]? = some edge →
      Route.destination edge ≠ id)
    (hout : ∀ (edgeId : ε) (edge : E), store.edges[edgeId]? = some edge →
      Route.source edge ≠ id) : (store.discard id).WellFormed := by
  have hkeep : ∀ other, other ∈ store.nodes → other ≠ id → other ∈ store.nodes.erase id := by
    intro other hother hne
    rw [Std.ExtTreeMap.mem_erase, ne_eq, Std.compare_eq_iff_eq]
    exact ⟨Ne.symm hne, hother⟩
  exact {
    ids := h.ids
    sources := fun edgeId edge hedge =>
      hkeep _ (h.sources edgeId edge hedge) (hout edgeId edge hedge)
    destinations := fun edgeId edge hedge =>
      hkeep _ (h.destinations edgeId edge hedge) (hin edgeId edge hedge)
    incoming := h.incoming.discard id
    outgoing := h.outgoing.discard id
    acyclic := h.acyclic }

theorem WellFormed.link (h : store.WellFormed) {edge : E} (hnew : Route.ident edge ∉ store.edges)
    (hsource : Route.source edge ∈ store.nodes)
    (hdestination : Route.destination edge ∈ store.nodes)
    (hback : ¬ ReflTransGen store.Precedes (Route.destination edge) (Route.source edge)) :
    (store.link edge).WellFormed := by
  -- every edge is an old one or the new one
  have hedges : ∀ (id : ε) (other : E), (store.edges.insert (Route.ident edge) edge)[id]? =
      some other → store.edges[id]? = some other ∨ (id = Route.ident edge ∧ other = edge) := by
    intro id other hother
    rw [getElem?_insert_eq] at hother
    split at hother
    · exact .inr ⟨‹_›, (Option.some.inj hother).symm⟩
    · exact .inl hother
  refine {
    ids := fun id other hother => ?_
    sources := fun id other hother => ?_
    destinations := fun id other hother => ?_
    incoming := h.incoming.link hnew edge
    outgoing := h.outgoing.link hnew edge
    acyclic := ?_ }
  · rcases hedges id other hother with hold | ⟨rfl, rfl⟩
    · exact h.ids id other hold
    · rfl
  · rcases hedges id other hother with hold | ⟨-, rfl⟩
    · exact h.sources id other hold
    · exact hsource
  · rcases hedges id other hother with hold | ⟨-, rfl⟩
    · exact h.destinations id other hold
    · exact hdestination
  · refine h.acyclic.insert (x := Route.source edge) (y := Route.destination edge) ?_ hback
    rintro a b ⟨id, other, hother, rfl, rfl⟩
    rcases hedges id other hother with hold | ⟨-, rfl⟩
    · exact .inl ⟨id, other, hold, rfl, rfl⟩
    · exact .inr ⟨rfl, rfl⟩

theorem WellFormed.unlink (h : store.WellFormed) {id : ε} {edge : E}
    (hedge : store.edges[id]? = some edge) : (store.unlink id edge).WellFormed := by
  have hedges : ∀ (other : ε) (found : E), (store.edges.erase id)[other]? = some found →
      store.edges[other]? = some found := by
    intro other found hfound
    rw [getElem?_erase_eq] at hfound
    split at hfound
    · cases hfound
    · exact hfound
  exact {
    ids := fun other found hfound => h.ids other found (hedges other found hfound)
    sources := fun other found hfound => h.sources other found (hedges other found hfound)
    destinations := fun other found hfound => h.destinations other found (hedges other found hfound)
    incoming := h.incoming.unlink hedge
    outgoing := h.outgoing.unlink hedge
    acyclic := h.acyclic.mono fun a b ⟨other, found, hfound, hends⟩ =>
      ⟨other, found, hedges other found hfound, hends⟩ }

/-! ## Order -/

omit [Std.LawfulEqOrd ν] in
/-- The successors of `b` name `a` once for every edge from `b` to `a`. -/
theorem count_successors {a b : ν} {out : Std.ExtTreeSet ε} (hout : store.outgoing[b]? = some out) :
    (store.successors b).count a = (out.toList.toFinset.filter fun edgeId : ε =>
      (store.edges[edgeId]?.map Route.destination) = some a).card := by
  rw [successors, listed, hout]
  simp only [List.map_filterMap]
  rw [List.count_filterMap, List.countP_eq_length_filter,
    ← List.toFinset_card_of_nodup ((nodup_toList out).filter _), List.toFinset_filter]
  simp

/-- The number of edges into a node is the number of times other nodes name it. -/
theorem size_incoming (h : store.WellFormed) {a : ν} {group : Std.ExtTreeSet ε}
    (hgroup : store.incoming[a]? = some group) :
    group.size = ∑ b ∈ store.nodes.keys.toFinset, (store.successors b).count a := by
  -- the edges into `a`, sorted by where they come from
  let sourceOf : ε → ν := fun edgeId => (store.edges[edgeId]?.map Route.source).getD a
  have hsource : ∀ edgeId ∈ group.toList.toFinset, sourceOf edgeId ∈ store.nodes.keys.toFinset := by
    intro edgeId hmem
    rw [List.mem_toFinset, Std.ExtTreeSet.mem_toList, h.incoming.mem_iff a group hgroup] at hmem
    obtain ⟨edge, hedge, -⟩ := hmem
    simpa [sourceOf, hedge] using h.sources edgeId edge hedge
  rw [← Std.ExtTreeSet.length_toList, ← List.toFinset_card_of_nodup (nodup_toList group),
    Finset.card_eq_sum_card_fiberwise hsource]
  refine Finset.sum_congr rfl fun b hb => ?_
  obtain ⟨out, hout⟩ := h.outgoing.exists_group (show b ∈ store.nodes by simpa using hb)
  rw [count_successors hout]
  congr 1
  ext edgeId
  simp only [Finset.mem_filter, List.mem_toFinset, Std.ExtTreeSet.mem_toList,
    h.incoming.mem_iff a group hgroup, h.outgoing.mem_iff b out hout, Option.map_eq_some_iff,
    sourceOf]
  constructor
  · rintro ⟨⟨edge, hedge, hdestination⟩, hb⟩
    exact ⟨⟨edge, hedge, by simpa [hedge] using hb⟩, edge, hedge, hdestination⟩
  · rintro ⟨⟨edge, hedge, hb⟩, edge', hedge', hdestination⟩
    exact ⟨⟨edge', hedge', hdestination⟩, by simp [hedge, hb]⟩

theorem orderStart_inv (h : store.WellFormed) :
    Kahn.Inv store.successors store.nodes.keys.toFinset store.orderStart where
  nodup := List.nodup_nil
  listed := by simp [orderStart]
  indegree := by
    intro a ha
    obtain ⟨group, hgroup⟩ := h.incoming.exists_group (show a ∈ store.nodes by simpa using ha)
    simp [orderStart, Std.ExtTreeMap.getElem?_map, hgroup, size_incoming h hgroup]
  ready := by
    intro a
    have hmem : a ∈ store.orderStart.ready ↔
        ∃ group, store.incoming[a]? = some group ∧ group.size = 0 := by
      simp [orderStart, Std.ExtTreeMap.mem_toList_iff_getElem?_eq_some]
    rw [hmem]
    constructor
    · rintro ⟨group, hgroup, hzero⟩
      have ha : a ∈ store.nodes := (h.incoming.keys a).1 (mem_of_getElem?_eq_some hgroup)
      rw [size_incoming h hgroup, Finset.sum_eq_zero_iff] at hzero
      exact ⟨by simpa using ha, by simp [orderStart],
        fun b hb _ => List.count_eq_zero.1 (hzero b hb)⟩
    · rintro ⟨ha, -, hsources⟩
      obtain ⟨group, hgroup⟩ := h.incoming.exists_group (show a ∈ store.nodes by simpa using ha)
      refine ⟨group, hgroup, ?_⟩
      rw [size_incoming h hgroup]
      exact Finset.sum_eq_zero fun b hb =>
        List.count_eq_zero.2 (hsources b hb (by simp [orderStart]))
  sorted := List.Pairwise.nil
  closed := by simp [orderStart]

/-- The order lists every node once, behind all its predecessors, and ends because no node is ready
any more. -/
theorem order_sorted (h : store.WellFormed) :
    (Kahn.run store.successors store.nodes.size store.orderStart).ready.min? = none ∧
      Kahn.Sorted store.successors store.nodes.keys.toFinset store.order := by
  refine (orderStart_inv h).run (fun a _ b hb => ?_) (h.acyclic.mono fun a b hab => ?_) ?_
  · obtain ⟨id, edge, hedge, -, rfl⟩ := (mem_successors_iff h).1 hb
    simpa using h.destinations id edge hedge
  · exact (mem_successors_iff h).1 hab.2
  · rw [List.toFinset_card_of_nodup (nodup_keys store.nodes), Std.ExtTreeMap.length_keys]
    simp

end Invariant

end Incidence
end Superi

import Superi.Graph.Dag

/-!
# DagLaws — the invariant of the graph store

Adjacency is exactly the edges grouped by their ends, edges join stored nodes, and no walk returns
to its start.  Every operation of the store keeps this, and it makes the topological order
complete.
-/

namespace Superi
namespace Graph

open Core Result Keyed Digraph Relation

/-! ## Edges grouped by an end -/

/-- The adjacency collection has one entry for every node: the edges whose `key` is that node. -/
structure Groups {N : Type} (nodes : Std.ExtTreeMap NodeId N)
    (edges : Std.ExtTreeMap EdgeId GraphEdge) (key : GraphEdge → NodeId)
    (adjacency : Std.ExtTreeMap NodeId (Std.ExtTreeSet EdgeId)) : Prop where
  keys : ∀ id : NodeId, id ∈ adjacency ↔ id ∈ nodes
  mem_iff : ∀ (id : NodeId) (group : Std.ExtTreeSet EdgeId), adjacency[id]? = some group →
    ∀ edgeId : EdgeId, edgeId ∈ group ↔ ∃ edge, edges[edgeId]? = some edge ∧ key edge = id

namespace Groups

variable {N : Type} {nodes : Std.ExtTreeMap NodeId N} {edges : Std.ExtTreeMap EdgeId GraphEdge}
  {key : GraphEdge → NodeId} {adjacency : Std.ExtTreeMap NodeId (Std.ExtTreeSet EdgeId)}

theorem exists_group (h : Groups nodes edges key adjacency) {id : NodeId} (hid : id ∈ nodes) :
    ∃ group, adjacency[id]? = some group :=
  Option.isSome_iff_exists.1 (Std.ExtTreeMap.isSome_getElem?_iff_mem.2 ((h.keys id).2 hid))

theorem insertNode (h : Groups nodes edges key adjacency)
    (hends : ∀ (edgeId : EdgeId) (edge : GraphEdge), edges[edgeId]? = some edge → key edge ∈ nodes)
    {id : NodeId} (hnew : id ∉ nodes) (node : N) :
    Groups (nodes.insert id node) edges key (adjacency.insert id ∅) where
  keys := fun other => by
    simp only [Std.ExtTreeMap.mem_insert, h.keys]
  mem_iff := by
    intro other group hgroup edgeId
    rw [getElem?_insert_eq] at hgroup
    split at hgroup
    · rename_i heq
      cases hgroup
      simp only [Std.ExtTreeSet.not_mem_empty, false_iff, not_exists, not_and]
      intro edge hedge hkey
      exact hnew (heq ▸ hkey ▸ hends edgeId edge hedge)
    · exact h.mem_iff other group hgroup edgeId

theorem setNode (h : Groups nodes edges key adjacency) {id : NodeId} (hid : id ∈ nodes)
    (node : N) : Groups (nodes.insert id node) edges key adjacency where
  keys := fun other => by
    rw [h.keys, Std.ExtTreeMap.mem_insert, Std.compare_eq_iff_eq]
    exact ⟨.inr, fun hor => hor.elim (fun heq => heq ▸ hid) fun hin => hin⟩
  mem_iff := h.mem_iff

theorem removeNode (h : Groups nodes edges key adjacency) (id : NodeId) :
    Groups (nodes.erase id) edges key (adjacency.erase id) where
  keys := fun other => by
    simp only [Std.ExtTreeMap.mem_erase, h.keys]
  mem_iff := by
    intro other group hgroup edgeId
    rw [getElem?_erase_eq] at hgroup
    split at hgroup
    · cases hgroup
    · exact h.mem_iff other group hgroup edgeId

theorem insertEdge (h : Groups nodes edges key adjacency) {edge : GraphEdge}
    (hnew : edge.id ∉ edges) :
    Groups nodes (edges.insert edge.id edge) key
      (adjacency.modify (key edge) fun group => group.insert edge.id) where
  keys := fun other => by
    rw [Std.ExtTreeMap.mem_modify, h.keys]
  mem_iff := by
    have hfresh : edges[edge.id]? = none := Std.ExtTreeMap.getElem?_eq_none hnew
    intro other group hgroup edgeId
    rw [getElem?_modify_eq] at hgroup
    split at hgroup
    · rename_i heq
      obtain ⟨old, hold, rfl⟩ := Option.map_eq_some_iff.1 hgroup
      rw [mem_insert_eq, h.mem_iff other old hold, getElem?_insert_eq]
      by_cases hid : edgeId = edge.id
      · simp [hid, heq]
      · simp [hid]
    · rename_i hne
      rw [h.mem_iff other group hgroup, getElem?_insert_eq]
      by_cases hid : edgeId = edge.id
      · simpa [hid, hfresh] using Ne.symm hne
      · simp [hid]

theorem removeEdge (h : Groups nodes edges key adjacency) {id : EdgeId} {edge : GraphEdge}
    (hedge : edges[id]? = some edge) :
    Groups nodes (edges.erase id) key
      (adjacency.modify (key edge) fun group => group.erase id) where
  keys := fun other => by
    rw [Std.ExtTreeMap.mem_modify, h.keys]
  mem_iff := by
    intro other group hgroup edgeId
    rw [getElem?_modify_eq] at hgroup
    split at hgroup
    · obtain ⟨old, hold, rfl⟩ := Option.map_eq_some_iff.1 hgroup
      rw [mem_erase_eq, h.mem_iff other old hold, getElem?_erase_eq]
      by_cases hid : edgeId = id <;> simp [hid]
    · rename_i hne
      rw [h.mem_iff other group hgroup, getElem?_erase_eq]
      by_cases hid : edgeId = id
      · simpa [hid, hedge] using Ne.symm hne
      · simp [hid]

end Groups

/-! ## The invariant -/

namespace DirectedAcyclicGraph

variable {N : Type} {dag : DirectedAcyclicGraph N}

/-- Some stored edge leads from `a` to `b`. -/
def Precedes (dag : DirectedAcyclicGraph N) (a b : NodeId) : Prop :=
  ∃ (id : EdgeId) (edge : GraphEdge), dag.edges[id]? = some edge ∧ edge.source.nodeId = a ∧
    edge.destination.nodeId = b

structure WellFormed (dag : DirectedAcyclicGraph N) : Prop where
  ids : ∀ (id : EdgeId) (edge : GraphEdge), dag.edges[id]? = some edge → edge.id = id
  sources : ∀ (id : EdgeId) (edge : GraphEdge), dag.edges[id]? = some edge →
    edge.source.nodeId ∈ dag.nodes
  destinations : ∀ (id : EdgeId) (edge : GraphEdge), dag.edges[id]? = some edge →
    edge.destination.nodeId ∈ dag.nodes
  incoming : Groups dag.nodes dag.edges (fun edge => edge.destination.nodeId) dag.incoming
  outgoing : Groups dag.nodes dag.edges (fun edge => edge.source.nodeId) dag.outgoing
  acyclic : Acyclic dag.Precedes

theorem wellFormed_new (id : GraphId) : (new id : DirectedAcyclicGraph N).WellFormed where
  ids := by simp [new]
  sources := by simp [new]
  destinations := by simp [new]
  incoming := ⟨by simp [new], by simp [new]⟩
  outgoing := ⟨by simp [new], by simp [new]⟩
  acyclic := by
    intro a hcycle
    obtain ⟨_, ⟨_, _, hedge, -⟩, -⟩ := TransGen.head'_iff.1 hcycle
    simp [new] at hedge

theorem mem_destinations_iff (h : dag.WellFormed) {a b : NodeId} :
    b ∈ dag.destinations a ↔ dag.Precedes a b := by
  unfold DirectedAcyclicGraph.destinations
  split
  · rename_i group hgroup
    simp only [List.mem_filterMap, Std.ExtTreeSet.mem_toList, h.outgoing.mem_iff a group hgroup,
      Option.map_eq_some_iff]
    constructor
    · rintro ⟨id, ⟨edge, hedge, hsource⟩, edge', hedge', hdestination⟩
      exact ⟨id, edge', hedge', by rw [← hsource, Option.some.inj (hedge.symm.trans hedge')],
        hdestination⟩
    · rintro ⟨id, edge, hedge, hsource, hdestination⟩
      exact ⟨id, ⟨edge, hedge, hsource⟩, edge, hedge, hdestination⟩
  · rename_i hnone
    simp only [List.not_mem_nil, false_iff]
    rintro ⟨id, edge, hedge, rfl, -⟩
    obtain ⟨group, hgroup⟩ := h.outgoing.exists_group (h.sources id edge hedge)
    rw [hnone] at hgroup
    cases hgroup

theorem reaches_iff (h : dag.WellFormed) {a b : NodeId} :
    dag.reaches a b = true ↔ ReflTransGen dag.Precedes a b := by
  have hadj : dag.adjacency.Adj = dag.Precedes := by
    funext x y
    simp only [FiniteDigraph.Adj, adjacency, List.mem_reverse, mem_destinations_iff h]
  simp only [reaches, FiniteDigraph.search_eq_true_iff, List.mem_singleton, exists_eq_left,
    FiniteDigraph.Reaches, hadj]

/-! ## The operations keep it -/

theorem insertNode_eq_ok {id : NodeId} {node : N} {dag' : DirectedAcyclicGraph N} :
    dag.insertNode id node = .ok dag' ↔ id ∉ dag.nodes ∧
      { dag with
        nodes := dag.nodes.insert id node
        incoming := dag.incoming.insert id ∅
        outgoing := dag.outgoing.insert id ∅ } = dag' := by
  simp only [insertNode, bind_eq_ok, rejectIf_eq_ok, pure_eq_ok]
  simp

theorem removeNode_eq_ok {id : NodeId} {dag' : DirectedAcyclicGraph N} :
    dag.removeNode id = .ok dag' ↔ id ∈ dag.nodes ∧ touches dag.incoming id = false ∧
      touches dag.outgoing id = false ∧
      { dag with
        nodes := dag.nodes.erase id
        incoming := dag.incoming.erase id
        outgoing := dag.outgoing.erase id } = dag' := by
  simp only [removeNode, bind_eq_ok, rejectIf_eq_ok, pure_eq_ok]
  simp [and_assoc]

theorem insertEdge_eq_ok {edge : GraphEdge} {dag' : DirectedAcyclicGraph N} :
    dag.insertEdge edge = .ok dag' ↔ edge.id ∉ dag.edges ∧ edge.source.nodeId ∈ dag.nodes ∧
      edge.destination.nodeId ∈ dag.nodes ∧
      (edge.source.nodeId ≠ edge.destination.nodeId ∧
        dag.reaches edge.destination.nodeId edge.source.nodeId = false) ∧
      { dag with
        edges := dag.edges.insert edge.id edge
        outgoing := dag.outgoing.modify edge.source.nodeId fun edges => edges.insert edge.id
        incoming := dag.incoming.modify edge.destination.nodeId
          fun edges => edges.insert edge.id } = dag' := by
  simp only [insertEdge, bind_eq_ok, rejectIf_eq_ok, pure_eq_ok]
  simp

theorem removeEdge_eq_ok {id : EdgeId} {result : DirectedAcyclicGraph N × GraphEdge} :
    dag.removeEdge id = .ok result ↔ ∃ edge, dag.edges[id]? = some edge ∧
      ({ dag with
        edges := dag.edges.erase id
        outgoing := dag.outgoing.modify edge.source.nodeId fun edges => edges.erase id
        incoming := dag.incoming.modify edge.destination.nodeId
          fun edges => edges.erase id }, edge) = result := by
  simp only [removeEdge, bind_eq_ok, okOr_eq_ok, pure_eq_ok]

theorem WellFormed.insertNode (h : dag.WellFormed) {id : NodeId} {node : N}
    {dag' : DirectedAcyclicGraph N} (hok : dag.insertNode id node = .ok dag') :
    dag'.WellFormed := by
  obtain ⟨hnew, rfl⟩ := insertNode_eq_ok.1 hok
  have hkeep : ∀ other, other ∈ dag.nodes → other ∈ dag.nodes.insert id node := fun other hother =>
    Std.ExtTreeMap.mem_insert.2 (.inr hother)
  exact {
    ids := h.ids
    sources := fun edgeId edge hedge => hkeep _ (h.sources edgeId edge hedge)
    destinations := fun edgeId edge hedge => hkeep _ (h.destinations edgeId edge hedge)
    incoming := h.incoming.insertNode h.destinations hnew node
    outgoing := h.outgoing.insertNode h.sources hnew node
    acyclic := h.acyclic }

theorem WellFormed.setNode (h : dag.WellFormed) {id : NodeId} (hid : id ∈ dag.nodes) (node : N) :
    (dag.setNode id node).WellFormed := by
  have hkeep : ∀ other, other ∈ dag.nodes → other ∈ dag.nodes.insert id node := fun other hother =>
    Std.ExtTreeMap.mem_insert.2 (.inr hother)
  exact {
    ids := h.ids
    sources := fun edgeId edge hedge => hkeep _ (h.sources edgeId edge hedge)
    destinations := fun edgeId edge hedge => hkeep _ (h.destinations edgeId edge hedge)
    incoming := h.incoming.setNode hid node
    outgoing := h.outgoing.setNode hid node
    acyclic := h.acyclic }

/-- A group that is empty has no edge at its node. -/
theorem ne_of_touches {key : GraphEdge → NodeId}
    {adjacency : Std.ExtTreeMap NodeId (Std.ExtTreeSet EdgeId)}
    (hgroups : Groups dag.nodes dag.edges key adjacency) {id : NodeId} (hid : id ∈ dag.nodes)
    (hempty : touches adjacency id = false) :
    ∀ (edgeId : EdgeId) (edge : GraphEdge), dag.edges[edgeId]? = some edge → key edge ≠ id := by
  intro edgeId edge hedge hkey
  obtain ⟨group, hgroup⟩ := hgroups.exists_group hid
  have hmem := (hgroups.mem_iff id group hgroup edgeId).2 ⟨edge, hedge, hkey⟩
  have hnone : group = ∅ := by simpa [touches, hgroup] using hempty
  simp [hnone] at hmem

theorem WellFormed.removeNode (h : dag.WellFormed) {id : NodeId} {dag' : DirectedAcyclicGraph N}
    (hok : dag.removeNode id = .ok dag') : dag'.WellFormed := by
  obtain ⟨hid, hin, hout, rfl⟩ := removeNode_eq_ok.1 hok
  have hkeep : ∀ other, other ∈ dag.nodes → other ≠ id → other ∈ dag.nodes.erase id := by
    intro other hother hne
    rw [Std.ExtTreeMap.mem_erase, ne_eq, Std.compare_eq_iff_eq]
    exact ⟨Ne.symm hne, hother⟩
  exact {
    ids := h.ids
    sources := fun edgeId edge hedge => hkeep _ (h.sources edgeId edge hedge)
      (ne_of_touches h.outgoing hid hout edgeId edge hedge)
    destinations := fun edgeId edge hedge => hkeep _ (h.destinations edgeId edge hedge)
      (ne_of_touches h.incoming hid hin edgeId edge hedge)
    incoming := h.incoming.removeNode id
    outgoing := h.outgoing.removeNode id
    acyclic := h.acyclic }

theorem WellFormed.insertEdge (h : dag.WellFormed) {edge : GraphEdge}
    {dag' : DirectedAcyclicGraph N} (hok : dag.insertEdge edge = .ok dag') : dag'.WellFormed := by
  obtain ⟨hnew, hsource, hdestination, ⟨-, hback⟩, rfl⟩ := insertEdge_eq_ok.1 hok
  -- every edge is an old one or the new one
  have hedges : ∀ (id : EdgeId) (other : GraphEdge), (dag.edges.insert edge.id edge)[id]? =
      some other → dag.edges[id]? = some other ∨ (id = edge.id ∧ other = edge) := by
    intro id other hother
    rw [getElem?_insert_eq] at hother
    split at hother
    · exact .inr ⟨‹_›, (Option.some.inj hother).symm⟩
    · exact .inl hother
  refine {
    ids := fun id other hother => ?_
    sources := fun id other hother => ?_
    destinations := fun id other hother => ?_
    incoming := h.incoming.insertEdge hnew
    outgoing := h.outgoing.insertEdge hnew
    acyclic := ?_ }
  · rcases hedges id other hother with hold | ⟨rfl, rfl⟩
    · exact h.ids id other hold
    · rfl
  · rcases hedges id other hother with hold | ⟨-, rfl⟩
    · exact h.sources id other hold
    · exact hsource
  · rcases hedges id other hother with hold | ⟨-, rfl⟩
    · exact h.destinations id other hold
    · exact hdestination
  · refine h.acyclic.insert (x := edge.source.nodeId) (y := edge.destination.nodeId) ?_ ?_
    · rintro a b ⟨id, other, hother, rfl, rfl⟩
      rcases hedges id other hother with hold | ⟨-, rfl⟩
      · exact .inl ⟨id, other, hold, rfl, rfl⟩
      · exact .inr ⟨rfl, rfl⟩
    · rw [← reaches_iff h, hback]
      simp

theorem WellFormed.removeEdge (h : dag.WellFormed) {id : EdgeId}
    {result : DirectedAcyclicGraph N × GraphEdge} (hok : dag.removeEdge id = .ok result) :
    result.1.WellFormed := by
  obtain ⟨edge, hedge, rfl⟩ := removeEdge_eq_ok.1 hok
  have hedges : ∀ (other : EdgeId) (found : GraphEdge), (dag.edges.erase id)[other]? = some found →
      dag.edges[other]? = some found := by
    intro other found hfound
    rw [getElem?_erase_eq] at hfound
    split at hfound
    · cases hfound
    · exact hfound
  exact {
    ids := fun other found hfound => h.ids other found (hedges other found hfound)
    sources := fun other found hfound => h.sources other found (hedges other found hfound)
    destinations := fun other found hfound => h.destinations other found (hedges other found hfound)
    incoming := h.incoming.removeEdge hedge
    outgoing := h.outgoing.removeEdge hedge
    acyclic := h.acyclic.mono fun a b ⟨other, found, hfound, hends⟩ =>
      ⟨other, found, hedges other found hfound, hends⟩ }

/-! ## Topological order -/

/-- The successors of `b` name `a` once for every edge from `b` to `a`. -/
theorem count_destinations {a b : NodeId} {out : Std.ExtTreeSet EdgeId}
    (hout : dag.outgoing[b]? = some out) :
    (dag.destinations b).count a = (out.toList.toFinset.filter fun edgeId : EdgeId =>
      (dag.edges[edgeId]?.map fun edge => edge.destination.nodeId) = some a).card := by
  rw [DirectedAcyclicGraph.destinations, hout]
  simp only
  rw [List.count_filterMap, List.countP_eq_length_filter,
    ← List.toFinset_card_of_nodup ((nodup_toList out).filter _), List.toFinset_filter]
  simp

/-- The number of incoming edges of a node is the number of times other nodes name it. -/
theorem size_incoming (h : dag.WellFormed) {a : NodeId} {group : Std.ExtTreeSet EdgeId}
    (hgroup : dag.incoming[a]? = some group) :
    group.size = ∑ b ∈ dag.nodes.keys.toFinset, (dag.destinations b).count a := by
  -- the edges into `a`, sorted by where they come from
  let sourceOf : EdgeId → NodeId := fun edgeId =>
    (dag.edges[edgeId]?.map fun edge => edge.source.nodeId).getD a
  have hsource : ∀ edgeId ∈ group.toList.toFinset, sourceOf edgeId ∈ dag.nodes.keys.toFinset := by
    intro edgeId hmem
    rw [List.mem_toFinset, Std.ExtTreeSet.mem_toList, h.incoming.mem_iff a group hgroup] at hmem
    obtain ⟨edge, hedge, -⟩ := hmem
    simpa [sourceOf, hedge] using h.sources edgeId edge hedge
  rw [← Std.ExtTreeSet.length_toList, ← List.toFinset_card_of_nodup (nodup_toList group),
    Finset.card_eq_sum_card_fiberwise hsource]
  refine Finset.sum_congr rfl fun b hb => ?_
  obtain ⟨out, hout⟩ := h.outgoing.exists_group (show b ∈ dag.nodes by simpa using hb)
  rw [count_destinations hout]
  congr 1
  ext edgeId
  simp only [Finset.mem_filter, List.mem_toFinset, Std.ExtTreeSet.mem_toList,
    h.incoming.mem_iff a group hgroup, h.outgoing.mem_iff b out hout, Option.map_eq_some_iff,
    sourceOf]
  constructor
  · rintro ⟨⟨edge, hedge, hdestination⟩, hb⟩
    exact ⟨⟨edge, hedge, by simpa [hedge] using hb⟩, edge, hedge, hdestination⟩
  · rintro ⟨⟨edge, hedge, hb⟩, edge', hedge', hdestination⟩
    exact ⟨⟨edge', hedge', hdestination⟩, by simp [hedge, hb]⟩

theorem orderStart_inv (h : dag.WellFormed) :
    Kahn.Inv dag.destinations dag.nodes.keys.toFinset dag.orderStart where
  nodup := List.nodup_nil
  listed := by simp [orderStart]
  indegree := by
    intro a ha
    obtain ⟨group, hgroup⟩ := h.incoming.exists_group (show a ∈ dag.nodes by simpa using ha)
    simp [orderStart, Std.ExtTreeMap.getElem?_map, hgroup, size_incoming h hgroup]
  ready := by
    intro a
    have hmem : a ∈ dag.orderStart.ready ↔
        ∃ group, dag.incoming[a]? = some group ∧ group.size = 0 := by
      simp [orderStart, Std.ExtTreeMap.mem_toList_iff_getElem?_eq_some]
    rw [hmem]
    constructor
    · rintro ⟨group, hgroup, hzero⟩
      have ha : a ∈ dag.nodes := (h.incoming.keys a).1 (mem_of_getElem?_eq_some hgroup)
      rw [size_incoming h hgroup, Finset.sum_eq_zero_iff] at hzero
      exact ⟨by simpa using ha, by simp [orderStart],
        fun b hb _ => List.count_eq_zero.1 (hzero b hb)⟩
    · rintro ⟨ha, -, hsources⟩
      obtain ⟨group, hgroup⟩ := h.incoming.exists_group (show a ∈ dag.nodes by simpa using ha)
      refine ⟨group, hgroup, ?_⟩
      rw [size_incoming h hgroup]
      exact Finset.sum_eq_zero fun b hb =>
        List.count_eq_zero.2 (hsources b hb (by simp [orderStart]))
  sorted := List.Pairwise.nil
  closed := by simp [orderStart]

/-- The topological order lists every node once, behind all its predecessors, and ends because no
node is ready any more. -/
theorem topologicalOrder_sorted (h : dag.WellFormed) :
    (Kahn.run dag.destinations dag.nodes.size dag.orderStart).ready.min? = none ∧
      Kahn.Sorted dag.destinations dag.nodes.keys.toFinset dag.topologicalOrder := by
  refine (orderStart_inv h).run (fun a _ b hb => ?_) (h.acyclic.mono fun a b hab => ?_) ?_
  · obtain ⟨id, edge, hedge, -, rfl⟩ := (mem_destinations_iff h).1 hb
    simpa using h.destinations id edge hedge
  · exact (mem_destinations_iff h).1 hab.2
  · rw [List.toFinset_card_of_nodup (nodup_keys dag.nodes), Std.ExtTreeMap.length_keys]
    simp

end DirectedAcyclicGraph

end Graph
end Superi

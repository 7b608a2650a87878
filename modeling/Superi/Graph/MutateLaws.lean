import Superi.Graph.DagLaws
import Superi.Graph.Mutate

/-!
# MutateLaws — the invariant of editable graphs

Four redundant collections and two dependency graphs are kept in step by every mutation, hence by
every transaction and in every state a graph can reach.
-/

namespace Superi
namespace Graph

open Core Result Keyed Digraph Relation

variable {T : Type}

/-! ## The invariant -/

/-- One stored edge joins a bound output to a bound input that accepts it. -/
def Connects (dag : DirectedAcyclicGraph (EditableNode T)) (edge : GraphEdge) : Prop :=
  ∃ source target sourceName targetName, dag.node edge.source.nodeId = some source ∧
    dag.node edge.destination.nodeId = some target ∧
    source.outputName edge.source.portId = some sourceName ∧
    target.inputName edge.destination.portId = some targetName ∧
    validateConnection source.schema sourceName target.schema targetName = .ok ()

/-- The declaration behind an input endpoint. -/
def inputPort (dag : DirectedAcyclicGraph (EditableNode T)) (endpoint : GraphEndpoint) :
    Option PortSchema := do
  let node ← dag.node endpoint.nodeId
  let name ← node.inputName endpoint.portId
  node.schema.input name

/-- A driven parameter depends on what its driver reads. -/
def DependsOn (drivers : Std.ExtTreeMap ParameterAddress ParameterDriver)
    (target source : ParameterAddress) : Prop :=
  ∃ driver, drivers[target]? = some driver ∧ source ∈ driver.addresses

namespace GraphState

/-- The type of the value an address names. -/
def typeOf (state : GraphState T) (address : ParameterAddress) : Option ValueTypeId :=
  (state.parameter address).map fun parameter => parameter.value.valueType

/-- Target and dependencies of a driver exist with the types it declares. -/
structure DriverTyped (state : GraphState T) (target : ParameterAddress)
    (driver : ParameterDriver) : Prop where
  target : state.typeOf target = some driver.valueType
  dependencies : ∀ dependency ∈ driver.dependencies,
    state.typeOf dependency.address = some dependency.valueType
  link : driver.asLink ≠ none → ∀ dependency ∈ driver.dependencies,
    dependency.valueType = driver.valueType

/-- The invariant of a published state. -/
structure WellFormed (state : GraphState T) : Prop where
  dag : state.dag.WellFormed
  connected : ∀ (id : EdgeId) (edge : GraphEdge), state.dag.edges[id]? = some edge →
    Connects state.dag edge
  capacity : ∀ (id id' : EdgeId) (edge edge' : GraphEdge) (port : PortSchema),
    state.dag.edges[id]? = some edge → state.dag.edges[id']? = some edge' →
    edge.destination = edge'.destination → inputPort state.dag edge.destination = some port →
    port.cardinality ≠ .variadic → id = id'
  orderNodup : state.nodeOrder.Nodup
  orderMem : ∀ id : NodeId, id ∈ state.nodeOrder ↔ id ∈ state.dag.nodes
  drivers : ∀ (target : ParameterAddress) (driver : ParameterDriver),
    state.parameterDrivers[target]? = some driver → state.DriverTyped target driver
  driversAcyclic : Acyclic (DependsOn state.parameterDrivers)

/-- Presentation order is a permutation of the stored nodes. -/
theorem WellFormed.order_perm {state : GraphState T} (h : state.WellFormed) :
    state.nodeOrder.Perm state.dag.nodes.keys :=
  (List.perm_ext_iff_of_nodup h.orderNodup (nodup_keys _)).2 fun id => by
    rw [h.orderMem, Std.ExtTreeMap.mem_keys]

/-! ## What connections and drivers see of a node -/

/-- Two nodes with the same ports and the same types of parameters. -/
structure SameShape (node node' : EditableNode T) : Prop where
  schema : node'.schema = node.schema
  inputs : node'.inputs = node.inputs
  outputs : node'.outputs = node.outputs
  types : ∀ id : ParameterId, (node'.parameter id).map (fun parameter => parameter.value.valueType) =
    (node.parameter id).map fun parameter => parameter.value.valueType

theorem SameShape.refl (node : EditableNode T) : SameShape node node :=
  ⟨rfl, rfl, rfl, fun _ => rfl⟩

/-- The node under an identity keeps its shape. -/
def Keeps (dag dag' : DirectedAcyclicGraph (EditableNode T)) (id : NodeId) : Prop :=
  ∀ node, dag.node id = some node → ∃ node', dag'.node id = some node' ∧ SameShape node node'

theorem connects_keeps {dag dag' : DirectedAcyclicGraph (EditableNode T)} {edge : GraphEdge}
    (h : Connects dag edge) (hsource : Keeps dag dag' edge.source.nodeId)
    (hdestination : Keeps dag dag' edge.destination.nodeId) : Connects dag' edge := by
  obtain ⟨source, target, sourceName, targetName, hs, ht, hsn, htn, hvalid⟩ := h
  obtain ⟨source', hs', hsame⟩ := hsource source hs
  obtain ⟨target', ht', hsame'⟩ := hdestination target ht
  refine ⟨source', target', sourceName, targetName, hs', ht', ?_, ?_, ?_⟩
  · rw [EditableNode.outputName, hsame.outputs]
    exact hsn
  · rw [EditableNode.inputName, hsame'.inputs]
    exact htn
  · rw [hsame.schema, hsame'.schema]
    exact hvalid

theorem inputPort_keeps {dag dag' : DirectedAcyclicGraph (EditableNode T)}
    {endpoint : GraphEndpoint} (hmem : endpoint.nodeId ∈ dag.nodes)
    (h : Keeps dag dag' endpoint.nodeId) : inputPort dag' endpoint = inputPort dag endpoint := by
  obtain ⟨node, hnode⟩ :=
    Option.isSome_iff_exists.1 (Std.ExtTreeMap.isSome_getElem?_iff_mem.2 hmem)
  obtain ⟨node', hnode', hsame⟩ := h node hnode
  have hnode : dag.node endpoint.nodeId = some node := hnode
  simp only [inputPort, hnode, hnode', EditableNode.inputName, hsame.inputs, hsame.schema,
    Option.bind_eq_bind, Option.bind_some]

theorem typeOf_keeps {state state' : GraphState T} {address : ParameterAddress}
    {valueType : ValueTypeId} (h : Keeps state.dag state'.dag address.nodeId)
    (htype : state.typeOf address = some valueType) : state'.typeOf address = some valueType := by
  simp only [typeOf, parameter] at htype ⊢
  cases hnode : state.dag.node address.nodeId with
  | none => simp [hnode] at htype
  | some node =>
      obtain ⟨node', hnode', hsame⟩ := h node hnode
      rw [hnode, Option.bind_some] at htype
      rw [hnode', Option.bind_some, hsame.types]
      exact htype

theorem DriverTyped.keeps {state state' : GraphState T} {target : ParameterAddress}
    {driver : ParameterDriver} (h : state.DriverTyped target driver)
    (htarget : Keeps state.dag state'.dag target.nodeId)
    (hdependencies : ∀ dependency ∈ driver.dependencies,
      Keeps state.dag state'.dag dependency.address.nodeId) : state'.DriverTyped target driver where
  target := typeOf_keeps htarget h.target
  dependencies := fun dependency hmem =>
    typeOf_keeps (hdependencies dependency hmem) (h.dependencies dependency hmem)
  link := h.link

theorem keeps_insert {dag : DirectedAcyclicGraph (EditableNode T)} {nodeId : NodeId}
    {node : EditableNode T} (hnew : nodeId ∉ dag.nodes)
    {dag' : DirectedAcyclicGraph (EditableNode T)} (hnodes : dag'.nodes = dag.nodes.insert nodeId node)
    (id : NodeId) : Keeps dag dag' id := by
  intro old hold
  refine ⟨old, ?_, .refl old⟩
  rw [DirectedAcyclicGraph.node, hnodes, getElem?_insert_eq, if_neg]
  · exact hold
  · rintro rfl
    exact hnew (mem_of_getElem?_eq_some hold)

theorem keeps_same {dag dag' : DirectedAcyclicGraph (EditableNode T)}
    (hnodes : dag'.nodes = dag.nodes) (id : NodeId) : Keeps dag dag' id := fun node hnode =>
  ⟨node, by rw [DirectedAcyclicGraph.node, hnodes]; exact hnode, .refl node⟩

theorem keeps_erase {dag dag' : DirectedAcyclicGraph (EditableNode T)} {nodeId id : NodeId}
    (hnodes : dag'.nodes = dag.nodes.erase nodeId) (hne : id ≠ nodeId) : Keeps dag dag' id :=
  fun node hnode => ⟨node, by
    rw [DirectedAcyclicGraph.node, hnodes, getElem?_erase_eq, if_neg hne]
    exact hnode, .refl node⟩

theorem keeps_set {dag : DirectedAcyclicGraph (EditableNode T)} {nodeId : NodeId}
    {node node' : EditableNode T} (hnode : dag.node nodeId = some node)
    (hsame : SameShape node node') (id : NodeId) : Keeps dag (dag.setNode nodeId node') id := by
  intro old hold
  by_cases hid : id = nodeId
  · subst hid
    rw [hnode] at hold
    cases hold
    exact ⟨node', by simp [DirectedAcyclicGraph.node, DirectedAcyclicGraph.setNode], hsame⟩
  · refine ⟨old, ?_, .refl old⟩
    rw [DirectedAcyclicGraph.node, DirectedAcyclicGraph.setNode, getElem?_insert_eq, if_neg hid]
    exact hold

theorem mem_of_typeOf {state : GraphState T} {address : ParameterAddress} {valueType : ValueTypeId}
    (h : state.typeOf address = some valueType) : address.nodeId ∈ state.dag.nodes := by
  cases hnode : state.dag.node address.nodeId with
  | none => simp [typeOf, parameter, hnode] at h
  | some node => exact mem_of_getElem?_eq_some hnode

/-! ## One mutation -/

/-- Every node a driver names. -/
def Names (target : ParameterAddress) (driver : ParameterDriver) (id : NodeId) : Prop :=
  target.nodeId = id ∨ ∃ dependency ∈ driver.dependencies, dependency.address.nodeId = id

theorem DriverTyped.mem_nodes {state : GraphState T} {target : ParameterAddress}
    {driver : ParameterDriver} (h : state.DriverTyped target driver) {id : NodeId}
    (hnames : Names target driver id) : id ∈ state.dag.nodes := by
  rcases hnames with rfl | ⟨dependency, hmem, rfl⟩
  · exact mem_of_typeOf h.target
  · exact mem_of_typeOf (h.dependencies dependency hmem)

/-- Dropping edges and drivers, and changing nodes that keep their shape or that nothing names any
more, cannot break the invariant. -/
theorem WellFormed.shrink {state state' : GraphState T} (h : state.WellFormed)
    (hdag : state'.dag.WellFormed)
    (hedges : ∀ (id : EdgeId) (edge : GraphEdge), state'.dag.edges[id]? = some edge →
      state.dag.edges[id]? = some edge)
    (hdrivers : ∀ (target : ParameterAddress) (driver : ParameterDriver),
      state'.parameterDrivers[target]? = some driver →
      state.parameterDrivers[target]? = some driver)
    (hnamed : ∀ (target : ParameterAddress) (driver : ParameterDriver),
      state'.parameterDrivers[target]? = some driver → ∀ id : NodeId, Names target driver id →
      id ∈ state'.dag.nodes)
    (hkeeps : ∀ id : NodeId, id ∈ state'.dag.nodes → Keeps state.dag state'.dag id)
    (hnodup : state'.nodeOrder.Nodup)
    (hmem : ∀ id : NodeId, id ∈ state'.nodeOrder ↔ id ∈ state'.dag.nodes) :
    state'.WellFormed where
  dag := hdag
  connected := fun id edge hedge => connects_keeps (h.connected id edge (hedges id edge hedge))
    (hkeeps _ (hdag.sources id edge hedge)) (hkeeps _ (hdag.destinations id edge hedge))
  capacity := by
    intro id id' edge edge' port hedge hedge' hsame hport hcardinality
    have hold := hedges id edge hedge
    rw [inputPort_keeps (h.dag.destinations id edge hold)
      (hkeeps _ (hdag.destinations id edge hedge))] at hport
    exact h.capacity id id' edge edge' port hold (hedges id' edge' hedge') hsame hport hcardinality
  orderNodup := hnodup
  orderMem := hmem
  drivers := by
    intro target driver hdriver
    have hnames := hnamed target driver hdriver
    exact (h.drivers target driver (hdrivers target driver hdriver)).keeps
      (hkeeps _ (hnames _ (.inl rfl)))
      (fun dependency hdependency => hkeeps _ (hnames _ (.inr ⟨dependency, hdependency, rfl⟩)))
  driversAcyclic := h.driversAcyclic.mono fun target _ ⟨driver, hdriver, hsource⟩ =>
    ⟨driver, hdrivers target driver hdriver, hsource⟩

theorem WellFormed.add {state state' : GraphState T} (h : state.WellFormed) {nodeId : NodeId}
    {node : EditableNode T} {position : Nat}
    (hok : applyMutation state (.add nodeId node position) = .ok state') : state'.WellFormed := by
  simp only [applyMutation, bind_eq_ok, rejectIf_eq_ok, not_lt, pure_eq_ok] at hok
  obtain ⟨_, hposition, dag, hinsert, rfl⟩ := hok
  have hdag := h.dag.insertNode hinsert
  obtain ⟨hnew, rfl⟩ := DirectedAcyclicGraph.insertNode_eq_ok.1 hinsert
  have hperm : (state.nodeOrder.insertIdx position nodeId).Perm (nodeId :: state.nodeOrder) :=
    List.perm_insertIdx nodeId state.nodeOrder hposition
  have hmem : ∀ id : NodeId, id ∈ state.dag.nodes.insert nodeId node ↔
      id = nodeId ∨ id ∈ state.dag.nodes := by
    intro id
    rw [Std.ExtTreeMap.mem_insert, Std.compare_eq_iff_eq, eq_comm]
  refine h.shrink hdag (fun _ _ => id) (fun _ _ => id) (fun target driver hdriver id hnames => ?_)
    (fun id _ => keeps_insert hnew rfl id) (hperm.nodup_iff.2 ?_) (fun id => ?_)
  · exact (hmem id).2 (.inr ((h.drivers target driver hdriver).mem_nodes hnames))
  · exact List.nodup_cons.2 ⟨fun hin => hnew ((h.orderMem nodeId).1 hin), h.orderNodup⟩
  · rw [hperm.mem_iff, List.mem_cons, h.orderMem, hmem]

/-- No driver names a node that may be removed. -/
theorem not_names_of_validateNodeDriverRemoval {state : GraphState T} {nodeId : NodeId}
    (h : validateNodeDriverRemoval state nodeId = .ok ()) {target : ParameterAddress}
    {driver : ParameterDriver} (hdriver : state.parameterDrivers[target]? = some driver) :
    ¬ Names target driver nodeId := by
  intro hnames
  refine rejectIf_eq_ok.1 h (List.any_eq_true.2 ⟨(target, driver), ?_, ?_⟩)
  · exact Std.ExtTreeMap.mem_toList_iff_getElem?_eq_some.2 hdriver
  · simpa [refersTo, Names, List.any_eq_true] using hnames

theorem WellFormed.remove {state state' : GraphState T} (h : state.WellFormed) {nodeId : NodeId}
    (hok : applyMutation state (.remove nodeId) = .ok state') : state'.WellFormed := by
  simp only [applyMutation, bind_eq_ok, pure_eq_ok] at hok
  obtain ⟨_, hunreferenced, dag, hremove, rfl⟩ := hok
  have hdag := h.dag.removeNode hremove
  obtain ⟨hnode, hin, hout, rfl⟩ := DirectedAcyclicGraph.removeNode_eq_ok.1 hremove
  have hmem : ∀ id : NodeId, id ∈ state.dag.nodes.erase nodeId ↔
      id ≠ nodeId ∧ id ∈ state.dag.nodes := by
    intro id
    rw [Std.ExtTreeMap.mem_erase, ne_eq, Std.compare_eq_iff_eq, eq_comm, ← ne_eq]
  refine h.shrink hdag (fun _ _ => id) (fun _ _ => id) (fun target driver hdriver id hnames => ?_)
    (fun id hid => keeps_erase rfl ((hmem id).1 hid).1) (h.orderNodup.erase nodeId) (fun id => ?_)
  · refine (hmem id).2 ⟨?_, (h.drivers target driver hdriver).mem_nodes hnames⟩
    rintro rfl
    exact not_names_of_validateNodeDriverRemoval hunreferenced hdriver hnames
  · rw [h.orderNodup.mem_erase_iff, h.orderMem, hmem]

theorem WellFormed.disconnect {state state' : GraphState T} (h : state.WellFormed) {edgeId : EdgeId}
    (hok : applyMutation state (.disconnect edgeId) = .ok state') : state'.WellFormed := by
  simp only [applyMutation, bind_eq_ok, pure_eq_ok] at hok
  obtain ⟨⟨dag, edge⟩, hremove, rfl⟩ := hok
  have hdag := h.dag.removeEdge hremove
  obtain ⟨edge, -, hresult⟩ := DirectedAcyclicGraph.removeEdge_eq_ok.1 hremove
  cases hresult
  refine h.shrink hdag (fun id found hfound => ?_) (fun _ _ => id)
    (fun target driver hdriver id hnames => (h.drivers target driver hdriver).mem_nodes hnames)
    (fun id _ => keeps_same rfl id) h.orderNodup h.orderMem
  rw [getElem?_erase_eq] at hfound
  split at hfound
  · cases hfound
  · exact hfound

theorem WellFormed.reorder {state state' : GraphState T} (h : state.WellFormed) {nodeId : NodeId}
    {position : Nat} (hok : applyMutation state (.reorder nodeId position) = .ok state') :
    state'.WellFormed := by
  simp only [applyMutation, bind_eq_ok, rejectIf_eq_ok, not_not, not_le, pure_eq_ok] at hok
  obtain ⟨_, hin, _, hposition, rfl⟩ := hok
  have hbound : position ≤ (state.nodeOrder.erase nodeId).length := by
    rw [List.length_erase_of_mem hin]
    omega
  have hperm : ((state.nodeOrder.erase nodeId).insertIdx position nodeId).Perm state.nodeOrder :=
    (List.perm_insertIdx nodeId _ hbound).trans (List.perm_cons_erase hin).symm
  exact h.shrink h.dag (fun _ _ => id) (fun _ _ => id)
    (fun target driver hdriver id hnames => (h.drivers target driver hdriver).mem_nodes hnames)
    (fun id _ => keeps_same rfl id) (hperm.nodup_iff.2 h.orderNodup)
    (fun id => by rw [hperm.mem_iff, h.orderMem])

theorem sameShape_of_setParameter {node node' : EditableNode T} {id : ParameterId}
    {value : TypedParameterValue T} (h : node.setParameter id value = .ok node') :
    SameShape node node' := by
  obtain ⟨hschema, hinputs, houtputs, parameter, hparameter, htype, hother⟩ :=
    EditableNode.setParameter_spec h
  refine ⟨hschema, hinputs, houtputs, fun other => ?_⟩
  rw [hother]
  split
  · rename_i heq
    simp [heq, hparameter, htype]
  · rfl

theorem WellFormed.setParameter {state state' : GraphState T} (h : state.WellFormed)
    {nodeId : NodeId} {parameterId : ParameterId} {value : TypedParameterValue T}
    (hok : applyMutation state (.setParameter nodeId parameterId value) = .ok state') :
    state'.WellFormed := by
  simp only [applyMutation, bind_eq_ok, okOr_eq_ok, pure_eq_ok] at hok
  obtain ⟨node, hnode, node', hset, rfl⟩ := hok
  have hid : nodeId ∈ state.dag.nodes := mem_of_getElem?_eq_some hnode
  have hmem : ∀ id : NodeId, id ∈ state.dag.nodes.insert nodeId node' ↔ id ∈ state.dag.nodes := by
    intro id
    rw [Std.ExtTreeMap.mem_insert, Std.compare_eq_iff_eq]
    constructor
    · rintro (rfl | hin)
      · exact hid
      · exact hin
    · exact .inr
  exact h.shrink (h.dag.setNode hid node') (fun _ _ => id) (fun _ _ => id)
    (fun target driver hdriver id hnames =>
      (hmem id).2 ((h.drivers target driver hdriver).mem_nodes hnames))
    (fun id _ => keeps_set hnode (sameShape_of_setParameter hset) id) h.orderNodup
    (fun id => by rw [h.orderMem]; exact (hmem id).symm)

theorem WellFormed.clearParameterDriver {state state' : GraphState T} (h : state.WellFormed)
    {target : ParameterAddress}
    (hok : applyMutation state (.clearParameterDriver target) = .ok state') :
    state'.WellFormed := by
  simp only [applyMutation, bind_eq_ok, rejectIf_eq_ok, pure_eq_ok] at hok
  obtain ⟨_, -, _, -, rfl⟩ := hok
  have hold : ∀ (other : ParameterAddress) (driver : ParameterDriver),
      (state.parameterDrivers.erase target)[other]? = some driver →
      state.parameterDrivers[other]? = some driver := by
    intro other driver hdriver
    rw [getElem?_erase_eq] at hdriver
    split at hdriver
    · cases hdriver
    · exact hdriver
  exact h.shrink h.dag (fun _ _ => id) hold
    (fun other driver hdriver id hnames =>
      (h.drivers other driver (hold other driver hdriver)).mem_nodes hnames)
    (fun id _ => keeps_same rfl id) h.orderNodup h.orderMem

/-- A stored edge is counted at its destination. -/
theorem incomingCount_pos {dag : DirectedAcyclicGraph (EditableNode T)} (h : dag.WellFormed)
    {id : EdgeId} {edge : GraphEdge} (hedge : dag.edges[id]? = some edge) :
    1 ≤ incomingCount dag edge.destination := by
  obtain ⟨group, hgroup⟩ := h.incoming.exists_group (h.destinations id edge hedge)
  have hmem : id ∈ group := (h.incoming.mem_iff _ group hgroup id).2 ⟨edge, hedge, rfl⟩
  rw [incomingCount, DirectedAcyclicGraph.incomingEdgeIds, hgroup]
  refine List.countP_pos_iff.2 ⟨id, Std.ExtTreeSet.mem_toList.2 hmem, ?_⟩
  simp [DirectedAcyclicGraph.edge, hedge]

/-- An accepted connection fits, and finds an input that is free unless it takes any number of
edges. -/
theorem validateStoredConnection_spec {dag : DirectedAcyclicGraph (EditableNode T)}
    {edge : GraphEdge} (h : validateStoredConnection dag edge = .ok ()) :
    Connects dag edge ∧ ∀ port, inputPort dag edge.destination = some port →
      port.cardinality ≠ .variadic → incomingCount dag edge.destination = 0 := by
  simp only [validateStoredConnection, bind_eq_ok, okOr_eq_ok, rejectIf_eq_ok] at h
  obtain ⟨source, hsource, target, htarget, sourceName, hsourceName, targetName, htargetName, ⟨⟩,
    hvalid, port, hport, hfree⟩ := h
  refine ⟨⟨source, target, sourceName, targetName, hsource, htarget, hsourceName, htargetName,
    hvalid⟩, fun port' hport' hcardinality => ?_⟩
  simp only [inputPort, htarget, htargetName, hport, Option.bind_eq_bind, Option.bind_some,
    Option.some.injEq] at hport'
  subst hport'
  by_contra hcount
  exact hfree ⟨hcardinality, Nat.one_le_iff_ne_zero.2 hcount⟩

theorem WellFormed.connect {state state' : GraphState T} (h : state.WellFormed) {edge : GraphEdge}
    (hok : applyMutation state (.connect edge) = .ok state') : state'.WellFormed := by
  simp only [applyMutation, bind_eq_ok, pure_eq_ok] at hok
  obtain ⟨⟨⟩, hvalid, dag, hinsert, rfl⟩ := hok
  obtain ⟨hconnects, hfree⟩ := validateStoredConnection_spec hvalid
  have hdag := h.dag.insertEdge hinsert
  obtain ⟨-, -, -, -, rfl⟩ := DirectedAcyclicGraph.insertEdge_eq_ok.1 hinsert
  -- every edge is an old one or the new one
  have hedges : ∀ (id : EdgeId) (other : GraphEdge),
      (state.dag.edges.insert edge.id edge)[id]? = some other →
      state.dag.edges[id]? = some other ∨ (id = edge.id ∧ other = edge) := by
    intro id other hother
    rw [getElem?_insert_eq] at hother
    split at hother
    · exact .inr ⟨‹_›, (Option.some.inj hother).symm⟩
    · exact .inl hother
  -- an old edge leaves no room for another one at its input
  have hfull : ∀ (id : EdgeId) (other : GraphEdge) (port : PortSchema),
      state.dag.edges[id]? = some other → other.destination = edge.destination →
      inputPort state.dag edge.destination = some port → port.cardinality ≠ .variadic → False := by
    intro id other port hother hsame hport hcardinality
    have hcount := incomingCount_pos h.dag hother
    rw [hsame, hfree port hport hcardinality] at hcount
    omega
  exact {
    dag := hdag
    connected := by
      intro id other hother
      rcases hedges id other hother with hold | ⟨-, rfl⟩
      · exact h.connected id other hold
      · exact hconnects
    capacity := by
      intro id id' other other' port hother hother' hsame hport hcardinality
      replace hport : inputPort state.dag other.destination = some port := hport
      rcases hedges id other hother with hold | ⟨rfl, rfl⟩ <;>
        rcases hedges id' other' hother' with hold' | ⟨rfl, rfl⟩
      · exact h.capacity id id' other other' port hold hold' hsame hport hcardinality
      · exact (hfull id other port hold hsame (hsame ▸ hport) hcardinality).elim
      · exact (hfull id' other' port hold' hsame.symm hport hcardinality).elim
      · rfl
    orderNodup := h.orderNodup
    orderMem := h.orderMem
    drivers := fun target driver hdriver => (h.drivers target driver hdriver).keeps
      (keeps_same rfl _) (fun _ _ => keeps_same rfl _)
    driversAcyclic := h.driversAcyclic }

theorem parameterValueType_eq_ok {state : GraphState T} {address : ParameterAddress}
    {operation : String} {valueType : ValueTypeId} :
    parameterValueType state address operation = .ok valueType ↔
      state.typeOf address = some valueType := okOr_eq_ok

/-- An accepted driver finds target and dependencies with the types it declares. -/
theorem driverTyped_of_validateParameterDriver {state : GraphState T} {target : ParameterAddress}
    {driver : ParameterDriver} (h : validateParameterDriver state target driver = .ok ()) :
    state.DriverTyped target driver := by
  simp only [validateParameterDriver, bind_eq_ok, parameterValueType_eq_ok, rejectIf_eq_ok,
    not_not] at h
  obtain ⟨targetType, htarget, _, rfl, hall⟩ := h
  have hdependency : ∀ dependency ∈ driver.dependencies,
      state.typeOf dependency.address = some dependency.valueType ∧
        (driver.asLink ≠ none → dependency.valueType = driver.valueType) := by
    intro dependency hmem
    have hone := forM_eq_ok.1 hall dependency hmem
    simp only [validateDependency, bind_eq_ok, parameterValueType_eq_ok, rejectIf_eq_ok,
      not_not, not_and] at hone
    obtain ⟨sourceType, hsource, _, rfl, hlink⟩ := hone
    exact ⟨hsource, hlink⟩
  exact ⟨htarget, fun dependency hmem => (hdependency dependency hmem).1,
    fun hlink dependency hmem => (hdependency dependency hmem).2 hlink⟩

theorem adj_dependencyGraph {drivers : Std.ExtTreeMap ParameterAddress ParameterDriver}
    {target source : ParameterAddress} :
    (dependencyGraph drivers).Adj target source ↔ DependsOn drivers target source := by
  unfold FiniteDigraph.Adj dependencyGraph DependsOn
  cases hdriver : drivers[target]? with
  | none => simp [hdriver]
  | some driver => simp [hdriver]

/-- The search from a parameter finds exactly the parameters it depends on. -/
theorem parameterDependencyReaches_iff
    {drivers : Std.ExtTreeMap ParameterAddress ParameterDriver}
    {current target : ParameterAddress} :
    parameterDependencyReaches drivers current target = true ↔
      TransGen (DependsOn drivers) current target := by
  have hadj : (dependencyGraph drivers).Adj = DependsOn drivers := by
    funext a b
    exact propext adj_dependencyGraph
  rw [parameterDependencyReaches, FiniteDigraph.search_eq_true_iff, TransGen.head'_iff,
    FiniteDigraph.Reaches, hadj]
  exact exists_congr fun next => and_congr_left fun _ => adj_dependencyGraph

theorem WellFormed.setParameterDriver {state state' : GraphState T} (h : state.WellFormed)
    {target : ParameterAddress} {driver : ParameterDriver}
    (hok : applyMutation state (.setParameterDriver target driver) = .ok state') :
    state'.WellFormed := by
  simp only [applyMutation, bind_eq_ok, rejectIf_eq_ok, parameterDependencyReaches_iff,
    pure_eq_ok] at hok
  obtain ⟨⟨⟩, hvalid, _, hcycle, rfl⟩ := hok
  have htyped := driverTyped_of_validateParameterDriver hvalid
  exact {
    dag := h.dag
    connected := h.connected
    capacity := h.capacity
    orderNodup := h.orderNodup
    orderMem := h.orderMem
    drivers := by
      intro other found hfound
      rw [getElem?_insert_eq] at hfound
      split at hfound
      · rename_i heq
        cases hfound
        subst heq
        exact htyped.keeps (keeps_same rfl _) (fun _ _ => keeps_same rfl _)
      · exact (h.drivers other found hfound).keeps (keeps_same rfl _)
          (fun _ _ => keeps_same rfl _)
    driversAcyclic := by
      -- only the edges that leave the target are new
      refine h.driversAcyclic.change (x := target) (fun a b hab => ?_) hcycle
      obtain ⟨found, hfound, hsource⟩ := hab
      rw [getElem?_insert_eq] at hfound
      split at hfound
      · exact .inr ‹_›
      · exact .inl ⟨found, hfound, hsource⟩ }

/-- Every mutation keeps the invariant. -/
theorem WellFormed.applyMutation {state state' : GraphState T} {mutation : GraphMutation T}
    (h : state.WellFormed) (hok : applyMutation state mutation = .ok state') :
    state'.WellFormed := by
  cases mutation with
  | add => exact h.add hok
  | remove => exact h.remove hok
  | connect => exact h.connect hok
  | disconnect => exact h.disconnect hok
  | reorder => exact h.reorder hok
  | setParameter => exact h.setParameter hok
  | setParameterDriver => exact h.setParameterDriver hok
  | clearParameterDriver => exact h.clearParameterDriver hok

end GraphState

/-! ## Transactions and runs -/

namespace EditableGraph

theorem apply_eq_ok {graph graph' : EditableGraph T} {transaction : GraphTransaction T}
    (h : graph.apply transaction = .ok graph') :
    transaction.expectedRevision = graph.revision ∧
      ((transaction.mutations = [] ∧ graph' = graph) ∨
        (graph'.revision = graph.revision + 1 ∧ transaction.mutations.foldlM
          (fun state mutation => withErrorContext (applyMutation state mutation) applyContext)
          graph.state = .ok graph'.state)) := by
  simp only [apply, bind_eq_ok, rejectIf_eq_ok, not_not] at h
  obtain ⟨_, hrevision, h⟩ := h
  refine ⟨hrevision, ?_⟩
  split at h
  · rename_i hempty
    exact .inl ⟨List.isEmpty_iff.1 hempty, (pure_eq_ok.1 h).symm⟩
  · simp only [bind_eq_ok, pure_eq_ok] at h
    obtain ⟨_, -, state, hfold, rfl⟩ := h
    exact .inr ⟨rfl, hfold⟩

/-- The states one graph can be in: transactions applied to an empty graph. -/
inductive Reachable : EditableGraph T → Prop
  | new (id : GraphId) : Reachable (.new id)
  | apply {graph graph' : EditableGraph T} (transaction : GraphTransaction T)
      (hreachable : Reachable graph) (hok : graph.apply transaction = .ok graph') :
      Reachable graph'

theorem wellFormed_new (id : GraphId) : (new id : EditableGraph T).state.WellFormed where
  dag := DirectedAcyclicGraph.wellFormed_new id
  connected := by simp [new, DirectedAcyclicGraph.new]
  capacity := by simp [new, DirectedAcyclicGraph.new]
  orderNodup := List.nodup_nil
  orderMem := by simp [new, DirectedAcyclicGraph.new]
  drivers := by simp [new]
  driversAcyclic := by
    intro a hcycle
    obtain ⟨_, ⟨_, hdriver, -⟩, -⟩ := TransGen.head'_iff.1 hcycle
    simp [new] at hdriver

theorem wellFormed_apply {graph graph' : EditableGraph T} {transaction : GraphTransaction T}
    (h : graph.state.WellFormed) (hok : graph.apply transaction = .ok graph') :
    graph'.state.WellFormed := by
  obtain ⟨-, ⟨-, rfl⟩ | ⟨-, hfold⟩⟩ := apply_eq_ok hok
  · exact h
  · exact foldlM_ok_induction GraphState.WellFormed
      (fun _ _ _ hstate hstep => hstate.applyMutation (withErrorContext_eq_ok.1 hstep)) h hfold

/-- Every reachable state satisfies the invariant. -/
theorem Reachable.wellFormed {graph : EditableGraph T} (h : graph.Reachable) :
    graph.state.WellFormed := by
  induction h with
  | new id => exact wellFormed_new id
  | apply _ _ hok ih => exact wellFormed_apply ih hok

end EditableGraph

end Graph
end Superi

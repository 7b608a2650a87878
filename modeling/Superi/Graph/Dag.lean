import Superi.Core.Error
import Superi.Core.Ids
import Superi.Lib.Kahn

/-!
# Dag — deterministic directed acyclic graph storage

The store is generic over node payloads.  Nodes, edges and adjacency are kept in key order; an edge
is checked against every direct and transitive cycle before any collection changes.
-/

namespace Superi
namespace Graph

open Core Result Keyed

/-! ## Routes -/

/-- One typed endpoint of a directed connection. -/
structure GraphEndpoint where
  nodeId : NodeId
  portId : PortId
  deriving DecidableEq, Repr

/-- One typed directed edge from an output endpoint to an input endpoint. -/
structure GraphEdge where
  id : EdgeId
  source : GraphEndpoint
  destination : GraphEndpoint
  deriving DecidableEq, Repr

/-! ## Storage -/

structure DirectedAcyclicGraph (N : Type) where
  id : GraphId
  nodes : Std.ExtTreeMap NodeId N
  edges : Std.ExtTreeMap EdgeId GraphEdge
  incoming : Std.ExtTreeMap NodeId (Std.ExtTreeSet EdgeId)
  outgoing : Std.ExtTreeMap NodeId (Std.ExtTreeSet EdgeId)

/-- Every failure of the store is a user-correctable one of one operation. -/
def dagError (category : ErrorCategory) (operation message : String) : Error :=
  (Error.new category .userCorrectable message).withContext ⟨"superi-graph.dag", operation⟩

namespace DirectedAcyclicGraph

variable {N : Type}

/-- An empty graph with stable identity. -/
def new (id : GraphId) : DirectedAcyclicGraph N where
  id
  nodes := ∅
  edges := ∅
  incoming := ∅
  outgoing := ∅

def node (dag : DirectedAcyclicGraph N) (id : NodeId) : Option N := dag.nodes[id]?

def edge (dag : DirectedAcyclicGraph N) (id : EdgeId) : Option GraphEdge := dag.edges[id]?

def incomingEdgeIds (dag : DirectedAcyclicGraph N) (id : NodeId) :
    Option (Std.ExtTreeSet EdgeId) := dag.incoming[id]?

/-- Whether an adjacency collection lists an edge at a node. -/
def touches (adjacency : Std.ExtTreeMap NodeId (Std.ExtTreeSet EdgeId)) (id : NodeId) : Bool :=
  match adjacency[id]? with
  | some edges => !edges.isEmpty
  | none => false

/-- The nodes one edge away, in edge order. -/
def destinations (dag : DirectedAcyclicGraph N) (id : NodeId) : List NodeId :=
  match dag.outgoing[id]? with
  | some edges => edges.toList.filterMap fun edgeId =>
      dag.edges[edgeId]?.map fun edge => edge.destination.nodeId
  | none => []

/-! ## Changing nodes -/

def insertNode (dag : DirectedAcyclicGraph N) (id : NodeId) (node : N) :
    Except Error (DirectedAcyclicGraph N) := do
  rejectIf (id ∈ dag.nodes)
    (dagError .conflict "insert_node" "graph node identity already exists")
  pure { dag with
    nodes := dag.nodes.insert id node
    incoming := dag.incoming.insert id ∅
    outgoing := dag.outgoing.insert id ∅ }

/-- Store a changed payload; identity, edges and adjacency cannot change. -/
def setNode (dag : DirectedAcyclicGraph N) (id : NodeId) (node : N) : DirectedAcyclicGraph N :=
  { dag with nodes := dag.nodes.insert id node }

/-- Remove one disconnected node. -/
def removeNode (dag : DirectedAcyclicGraph N) (id : NodeId) :
    Except Error (DirectedAcyclicGraph N) := do
  rejectIf (id ∉ dag.nodes) (dagError .notFound "remove_node" "graph node does not exist")
  rejectIf ((touches dag.incoming id || touches dag.outgoing id) = true)
    (dagError .conflict "remove_node" "graph node must be disconnected before removal")
  pure { dag with
    nodes := dag.nodes.erase id
    incoming := dag.incoming.erase id
    outgoing := dag.outgoing.erase id }

/-! ## Changing edges -/

/-- The adjacency of the graph as the cycle check walks it: the last edge pushed is popped
first. -/
def adjacency (dag : DirectedAcyclicGraph N) : Digraph.FiniteDigraph NodeId where
  succ := fun id => (dag.destinations id).reverse
  support := dag.outgoing.keys.toFinset
  succ_eq_nil := by
    intro id hid
    have hnone : dag.outgoing[id]? = none := by simpa using hid
    simp [destinations, hnone]

/-- Whether a walk along edges leads from `start` to `target`. -/
def reaches (dag : DirectedAcyclicGraph N) (start target : NodeId) : Bool :=
  dag.adjacency.search target [start] ∅

def insertEdge (dag : DirectedAcyclicGraph N) (edge : GraphEdge) :
    Except Error (DirectedAcyclicGraph N) := do
  rejectIf (edge.id ∈ dag.edges)
    (dagError .conflict "insert_edge" "graph edge identity already exists")
  rejectIf (edge.source.nodeId ∉ dag.nodes)
    (dagError .notFound "insert_edge" "graph edge source node does not exist")
  rejectIf (edge.destination.nodeId ∉ dag.nodes)
    (dagError .notFound "insert_edge" "graph edge destination node does not exist")
  rejectIf (edge.source.nodeId = edge.destination.nodeId ∨
      dag.reaches edge.destination.nodeId edge.source.nodeId = true)
    (dagError .conflict "insert_edge" "graph edge would create a directed cycle")
  pure { dag with
    edges := dag.edges.insert edge.id edge
    outgoing := dag.outgoing.modify edge.source.nodeId fun edges => edges.insert edge.id
    incoming := dag.incoming.modify edge.destination.nodeId fun edges => edges.insert edge.id }

/-- Remove one edge and return its route. -/
def removeEdge (dag : DirectedAcyclicGraph N) (id : EdgeId) :
    Except Error (DirectedAcyclicGraph N × GraphEdge) := do
  let edge ← okOr dag.edges[id]? (dagError .notFound "remove_edge" "graph edge does not exist")
  pure ({ dag with
    edges := dag.edges.erase id
    outgoing := dag.outgoing.modify edge.source.nodeId fun edges => edges.erase id
    incoming := dag.incoming.modify edge.destination.nodeId fun edges => edges.erase id }, edge)

/-! ## Order -/

/-- The number of incoming edges of every node, and the nodes that have none. -/
def orderStart (dag : DirectedAcyclicGraph N) : Kahn.State NodeId where
  indegree := dag.incoming.map fun _ edges => edges.size
  ready := .ofList (dag.incoming.toList.filterMap fun (id, edges) =>
    if edges.size = 0 then some id else none)
  order := []

/-- The stable topological node order: among ready nodes the smallest identity comes first.  The
loop lists at most every node once, so the number of nodes bounds it. -/
def topologicalOrder (dag : DirectedAcyclicGraph N) : List NodeId :=
  (Kahn.run dag.destinations dag.nodes.size dag.orderStart).order

end DirectedAcyclicGraph

end Graph
end Superi

import Superi.Core.Error
import Superi.Lib.Incidence

/-!
# Graph — the editable audio graph

Nodes carry an exact channel meaning, and a route is accepted only between equal layouts, between
buses its kind allows, and where it closes no cycle.  Nodes, routes and adjacency are kept in
identity order.

Adjacency is therefore exactly the routes grouped by their ends, no walk returns to its start, and
every route joins equal layouts.  The topological order is complete, and what a destination requires
is closed under the sources of its routes.
-/

namespace Superi
namespace Audio

open Core Result

/-! ## Identities -/

/-- What an audio-owned identity names. -/
inductive AudioIdKind
  | graph
  | node
  | edge
  deriving DecidableEq, Repr

/-- Stable audio-owned identity. -/
structure AudioId (kind : AudioIdKind) where
  raw : BitVec 128
  deriving DecidableEq, Repr

namespace AudioId

variable {kind : AudioIdKind}

instance : Ord (AudioId kind) := ⟨compareOn raw⟩

instance : Std.TransOrd (AudioId kind) :=
  inferInstanceAs (Std.TransCmp (compareOn raw))

instance : Std.LawfulEqOrd (AudioId kind) :=
  Keyed.lawfulEqCmp_compareOn fun a b hraw => by
    cases a
    cases b
    simp_all

end AudioId

abbrev AudioGraphId := AudioId .graph

abbrev AudioNodeId := AudioId .node

abbrev AudioEdgeId := AudioId .edge

/-! ## Channel layouts -/

inductive ChannelPosition
  | frontLeft
  | frontRight
  | frontCenter
  | lowFrequency
  | backLeft
  | backRight
  | frontLeftOfCenter
  | frontRightOfCenter
  | backCenter
  | sideLeft
  | sideRight
  | topCenter
  | topFrontLeft
  | topFrontCenter
  | topFrontRight
  | topBackLeft
  | topBackCenter
  | topBackRight
  | discrete (index : UInt16)
  deriving DecidableEq, Repr

/-- An ordered channel layout: at least one position, none of them twice. -/
structure ChannelLayout where
  positions : List ChannelPosition
  nonempty : positions ≠ []
  distinct : positions.Nodup
  deriving DecidableEq

namespace ChannelLayout

def mono : ChannelLayout := ⟨[.frontCenter], by decide, by decide⟩

end ChannelLayout

/-! ## Nodes and routes -/

/-- The routing role of one multi-input audio bus. -/
inductive AudioBusKind
  | submix
  | auxiliary
  | master
  deriving DecidableEq, Repr

/-- The processing role of one audio node. -/
inductive AudioNodeKind
  | source
  | processor
  | bus (kind : AudioBusKind)
  deriving DecidableEq, Repr

/-- The authored meaning of one audio route. -/
inductive AudioRouteKind
  | direct
  | send
  | auxReturn
  deriving DecidableEq, Repr

/-- What a role says about the layouts of its node. -/
def AudioNodeKind.Fits (kind : AudioNodeKind) (inputLayout : Option ChannelLayout)
    (outputLayout : ChannelLayout) : Prop :=
  match kind with
  | .source => inputLayout = none
  | .processor => inputLayout.isSome = true
  | .bus _ => inputLayout = some outputLayout

/-- One editable audio processing node with explicit channel meaning. -/
structure AudioNode where
  id : AudioNodeId
  kind : AudioNodeKind
  inputLayout : Option ChannelLayout
  outputLayout : ChannelLayout
  fits : kind.Fits inputLayout outputLayout

namespace AudioNode

/-- A node without an input layout is a source. -/
def new (id : AudioNodeId) (inputLayout : Option ChannelLayout) (outputLayout : ChannelLayout) :
    AudioNode where
  id
  kind := if inputLayout.isSome then .processor else .source
  inputLayout
  outputLayout
  fits := by
    cases inputLayout with
    | none => rfl
    | some layout => rfl

/-- A multi-input bus whose inputs and output share exact channel meaning. -/
def bus (id : AudioNodeId) (kind : AudioBusKind) (layout : ChannelLayout) : AudioNode where
  id
  kind := .bus kind
  inputLayout := some layout
  outputLayout := layout
  fits := rfl

end AudioNode

/-- One directed audio route. -/
structure AudioEdge where
  id : AudioEdgeId
  source : AudioNodeId
  destination : AudioNodeId
  kind : AudioRouteKind
  deriving DecidableEq, Repr

namespace AudioEdge

def new (id : AudioEdgeId) (source destination : AudioNodeId) : AudioEdge :=
  { id, source, destination, kind := .direct }

def send (id : AudioEdgeId) (source auxiliary : AudioNodeId) : AudioEdge :=
  { id, source, destination := auxiliary, kind := .send }

def auxReturn (id : AudioEdgeId) (auxiliary destination : AudioNodeId) : AudioEdge :=
  { id, source := auxiliary, destination, kind := .auxReturn }

instance : Route AudioEdge AudioNodeId AudioEdgeId where
  ident := id
  source := source
  destination := destination

end AudioEdge

/-! ## The graph -/

/-- Editable deterministic audio graph. -/
structure AudioGraph extends Incidence AudioNodeId AudioEdgeId AudioNode AudioEdge where
  id : AudioGraphId
  sampleRate : Nat
  maximumFrames : Nat
  master : Option AudioNodeId

/-- Every failure of the audio graph is a user-correctable one of one operation. -/
def audioError (category : ErrorCategory) (operation message : String) : Error :=
  (Error.new category .userCorrectable message).withContext ⟨"superi-audio.graph", operation⟩

/-- Whether an adjacency collection lists a route at a node. -/
def touches (adjacency : Std.ExtTreeMap AudioNodeId (Std.ExtTreeSet AudioEdgeId))
    (id : AudioNodeId) : Bool :=
  match adjacency[id]? with
  | some routes => !routes.isEmpty
  | none => false

/-- Refuse a route whose kind may not join the roles of its ends. -/
def AudioRouteKind.check (kind : AudioRouteKind) (upstream downstream : AudioNodeKind) :
    Except Error Unit :=
  match kind with
  | .direct =>
      rejectIf (upstream = .bus .auxiliary ∨ downstream = .bus .auxiliary)
        (audioError .invalidInput "insert_edge"
          "auxiliary buses require explicit send and return routes")
  | .send =>
      rejectIf (downstream ≠ .bus .auxiliary)
        (audioError .invalidInput "insert_edge" "audio send destination must be an auxiliary bus")
  | .auxReturn =>
      rejectIf (upstream ≠ .bus .auxiliary ∨
          ¬ (downstream = .bus .submix ∨ downstream = .bus .master))
        (audioError .invalidInput "insert_edge"
          "audio return must route an auxiliary bus into a submix or master bus")

namespace AudioGraph

/-- An empty graph with one integral sample clock and positive block bound. -/
def new (id : AudioGraphId) (sampleRate maximumFrames : Nat) : Except Error AudioGraph := do
  rejectIf (sampleRate = 0)
    (audioError .invalidInput "create_graph" "audio graph sample rate must be greater than zero")
  rejectIf (maximumFrames = 0)
    (audioError .invalidInput "create_graph"
      "audio graph maximum frame count must be greater than zero")
  pure { Incidence.empty with id, sampleRate, maximumFrames, master := none }

def insertNode (graph : AudioGraph) (node : AudioNode) : Except Error AudioGraph := do
  rejectIf (node.id ∈ graph.nodes)
    (audioError .conflict "insert_node" "audio node identity already exists")
  rejectIf (node.kind = .bus .master ∧ graph.master.isSome = true)
    (audioError .conflict "insert_node" "audio graph already contains a master bus")
  pure { graph with
    toIncidence := graph.place node.id node
    master := if node.kind = .bus .master then some node.id else graph.master }

/-- Remove one disconnected node. -/
def removeNode (graph : AudioGraph) (id : AudioNodeId) : Except Error AudioGraph := do
  rejectIf (id ∉ graph.nodes) (audioError .notFound "remove_node" "audio node does not exist")
  rejectIf (touches graph.incoming id = true ∨ touches graph.outgoing id = true)
    (audioError .conflict "remove_node" "audio node must be disconnected before removal")
  pure { graph with
    toIncidence := graph.discard id
    master := if graph.master = some id then none else graph.master }

/-- Whether a walk along routes leads from `start` to `target`. -/
def reaches (graph : AudioGraph) (start target : AudioNodeId) : Bool :=
  graph.forward.search target [start] ∅

/-- Insert one layout-compatible route without permitting cycles or ambiguous inputs. -/
def insertEdge (graph : AudioGraph) (edge : AudioEdge) : Except Error AudioGraph := do
  let refuse := fun category message => audioError category "insert_edge" message
  rejectIf (edge.id ∈ graph.edges) (refuse .conflict "audio edge identity already exists")
  let source ← okOr graph.nodes[edge.source]?
    (refuse .notFound "audio edge source node does not exist")
  let destination ← okOr graph.nodes[edge.destination]?
    (refuse .notFound "audio edge destination node does not exist")
  rejectIf (source.kind = .bus .master)
    (refuse .invalidInput "audio master bus cannot have an outgoing route")
  edge.kind.check source.kind destination.kind
  rejectIf (edge.source = edge.destination ∨ graph.reaches edge.destination edge.source = true)
    (refuse .conflict "audio edge would create a directed cycle")
  let inputLayout ← okOr destination.inputLayout
    (refuse .invalidInput "audio source node cannot accept an input edge")
  rejectIf (destination.kind = .processor ∧ touches graph.incoming edge.destination = true)
    (refuse .conflict "audio node input is already connected")
  rejectIf (source.outputLayout ≠ inputLayout)
    (refuse .invalidInput "audio edge channel layouts do not match")
  pure { graph with toIncidence := graph.link edge }

def removeEdge (graph : AudioGraph) (id : AudioEdgeId) : Except Error AudioGraph := do
  let edge ← okOr graph.edges[id]? (audioError .notFound "remove_edge" "audio edge does not exist")
  pure { graph with toIncidence := graph.unlink id edge }

/-- The stable complete topological order. -/
def topologicalOrder (graph : AudioGraph) : List AudioNodeId := graph.order

/-- The destination and everything that leads to it. -/
def requiredAncestors (graph : AudioGraph) (destination : AudioNodeId) : Finset AudioNodeId :=
  graph.backward.collect [destination] ∅

/-! ## Editing -/

inductive Edit
  | insertNode (node : AudioNode)
  | removeNode (id : AudioNodeId)
  | insertEdge (edge : AudioEdge)
  | removeEdge (id : AudioEdgeId)

def apply (graph : AudioGraph) : Edit → Except Error AudioGraph
  | .insertNode node => graph.insertNode node
  | .removeNode id => graph.removeNode id
  | .insertEdge edge => graph.insertEdge edge
  | .removeEdge id => graph.removeEdge id

/-- The graphs edits lead to; a refused edit leaves the graph as it was. -/
inductive Reachable : AudioGraph → Prop where
  | new {id : AudioGraphId} {sampleRate maximumFrames : Nat} {graph : AudioGraph} :
      AudioGraph.new id sampleRate maximumFrames = .ok graph → Reachable graph
  | edit {graph next : AudioGraph} (edit : Edit) :
      Reachable graph → graph.apply edit = .ok next → Reachable next

end AudioGraph

namespace AudioGraph

open Core Result Keyed Relation Digraph

variable {graph next : AudioGraph}

/-! ## The invariant -/

structure Sound (graph : AudioGraph) : Prop where
  store : graph.WellFormed
  nodeIds : ∀ (id : AudioNodeId) (node : AudioNode), graph.nodes[id]? = some node → node.id = id
  layouts : ∀ (id : AudioEdgeId) (edge : AudioEdge), graph.edges[id]? = some edge →
    ∃ source destination : AudioNode, graph.nodes[edge.source]? = some source ∧
      graph.nodes[edge.destination]? = some destination ∧
      destination.inputLayout = some source.outputLayout

theorem sound_new {id : AudioGraphId} {sampleRate maximumFrames : Nat}
    (hok : AudioGraph.new id sampleRate maximumFrames = .ok graph) : graph.Sound := by
  simp only [AudioGraph.new, bind_eq_ok, rejectIf_eq_ok, pure_eq_ok] at hok
  obtain ⟨-, -, -, -, rfl⟩ := hok
  exact ⟨Incidence.wellFormed_empty, by simp [Incidence.empty], by simp [Incidence.empty]⟩

theorem Sound.insertNode (h : graph.Sound) {node : AudioNode}
    (hok : graph.insertNode node = .ok next) : next.Sound := by
  simp only [AudioGraph.insertNode, bind_eq_ok, rejectIf_eq_ok, pure_eq_ok] at hok
  obtain ⟨_, hnew, _, -, rfl⟩ := hok
  -- a stored node is an old one or the new one
  have hkeep : ∀ (id : AudioNodeId) (old : AudioNode), graph.nodes[id]? = some old →
      (graph.nodes.insert node.id node)[id]? = some old := by
    intro id old hold
    rw [getElem?_insert_eq, if_neg]
    · exact hold
    · rintro rfl
      exact hnew (mem_of_getElem?_eq_some hold)
  refine ⟨h.store.place hnew node, fun id stored hstored => ?_, fun id edge hedge => ?_⟩
  · change (graph.nodes.insert node.id node)[id]? = some stored at hstored
    rw [getElem?_insert_eq] at hstored
    split at hstored
    · rename_i heq
      cases hstored
      exact heq.symm
    · exact h.nodeIds id stored hstored
  · obtain ⟨source, destination, hsource, hdestination, hlayout⟩ := h.layouts id edge hedge
    exact ⟨source, destination, hkeep _ _ hsource, hkeep _ _ hdestination, hlayout⟩

/-- Where no route is listed at a node, no stored route has its end there. -/
theorem ne_of_touches {key : AudioEdge → AudioNodeId}
    {adjacency : Std.ExtTreeMap AudioNodeId (Std.ExtTreeSet AudioEdgeId)}
    (hgroups : Incidence.Groups graph.nodes graph.edges key adjacency) {id : AudioNodeId}
    (hid : id ∈ graph.nodes) (hempty : ¬ touches adjacency id = true) :
    ∀ (edgeId : AudioEdgeId) (edge : AudioEdge), graph.edges[edgeId]? = some edge →
      key edge ≠ id := by
  intro edgeId edge hedge hkey
  obtain ⟨group, hgroup⟩ := hgroups.exists_group hid
  have hmem := (hgroups.mem_iff id group hgroup edgeId).2 ⟨edge, hedge, hkey⟩
  have hnone : group = ∅ := by simpa [touches, hgroup] using hempty
  simp [hnone] at hmem

theorem Sound.removeNode (h : graph.Sound) {id : AudioNodeId}
    (hok : graph.removeNode id = .ok next) : next.Sound := by
  simp only [AudioGraph.removeNode, bind_eq_ok, rejectIf_eq_ok, pure_eq_ok, not_or, not_not] at hok
  obtain ⟨_, hid, _, ⟨hin, hout⟩, rfl⟩ := hok
  have hdestination := ne_of_touches h.store.incoming hid hin
  have hsource := ne_of_touches h.store.outgoing hid hout
  refine ⟨h.store.discard hdestination hsource, fun other stored hstored => ?_,
    fun edgeId edge hedge => ?_⟩
  · change (graph.nodes.erase id)[other]? = some stored at hstored
    rw [getElem?_erase_eq] at hstored
    split at hstored
    · cases hstored
    · exact h.nodeIds other stored hstored
  · obtain ⟨source, destination, hs, hd, hlayout⟩ := h.layouts edgeId edge hedge
    refine ⟨source, destination, ?_, ?_, hlayout⟩
    · change (graph.nodes.erase id)[edge.source]? = some source
      rw [getElem?_erase_eq]
      exact (if_neg (hsource edgeId edge hedge)).trans hs
    · change (graph.nodes.erase id)[edge.destination]? = some destination
      rw [getElem?_erase_eq]
      exact (if_neg (hdestination edgeId edge hedge)).trans hd

theorem reaches_iff (h : graph.Sound) {a b : AudioNodeId} :
    graph.reaches a b = true ↔ ReflTransGen graph.Precedes a b :=
  Incidence.forward_reaches_iff h.store

theorem Sound.insertEdge (h : graph.Sound) {edge : AudioEdge}
    (hok : graph.insertEdge edge = .ok next) : next.Sound := by
  simp only [AudioGraph.insertEdge, bind_eq_ok, rejectIf_eq_ok, okOr_eq_ok, pure_eq_ok] at hok
  obtain ⟨_, hnew, source, hsource, destination, hdestination, _, -, _, -, _, hcycle, layout, hinput,
    _, -, _, hlayout, rfl⟩ := hok
  rw [not_or, reaches_iff h] at hcycle
  rw [not_not] at hlayout
  refine ⟨h.store.link hnew (mem_of_getElem?_eq_some hsource)
    (mem_of_getElem?_eq_some hdestination) hcycle.2, h.nodeIds, fun id other hother => ?_⟩
  change (graph.edges.insert edge.id edge)[id]? = some other at hother
  rw [getElem?_insert_eq] at hother
  split at hother
  · cases hother
    exact ⟨source, destination, hsource, hdestination, by rw [hinput, hlayout]⟩
  · exact h.layouts id other hother

theorem Sound.removeEdge (h : graph.Sound) {id : AudioEdgeId}
    (hok : graph.removeEdge id = .ok next) : next.Sound := by
  simp only [AudioGraph.removeEdge, bind_eq_ok, okOr_eq_ok, pure_eq_ok] at hok
  obtain ⟨edge, hedge, rfl⟩ := hok
  refine ⟨h.store.unlink hedge, h.nodeIds, fun other found hfound => ?_⟩
  change (graph.edges.erase id)[other]? = some found at hfound
  rw [getElem?_erase_eq] at hfound
  split at hfound
  · cases hfound
  · exact h.layouts other found hfound

/-- Every graph that edits lead to is sound. -/
theorem Reachable.sound (hreach : Reachable graph) : graph.Sound := by
  induction hreach with
  | new hok => exact sound_new hok
  | edit edit _ hok ih =>
      cases edit with
      | insertNode node => exact ih.insertNode hok
      | removeNode id => exact ih.removeNode hok
      | insertEdge edge => exact ih.insertEdge hok
      | removeEdge id => exact ih.removeEdge hok

/-! ## Order -/

/-- The topological order lists every node once, and no node before one of its sources. -/
theorem topologicalOrder_sorted (h : graph.Sound) :
    Kahn.Sorted graph.successors graph.nodes.keys.toFinset graph.topologicalOrder :=
  (Incidence.order_sorted h.store).2

/-- A run of edits. -/
theorem Reachable.edits {edits : List Edit} (hreach : Reachable graph)
    (hok : edits.foldlM apply graph = .ok next) : Reachable next := by
  induction edits generalizing graph with
  | nil =>
      cases hok
      exact hreach
  | cons edit rest ih =>
      rw [List.foldlM_cons, bind_eq_ok] at hok
      obtain ⟨edited, hedit, hok⟩ := hok
      exact ih (hreach.edit edit hedit) hok

end AudioGraph
end Audio
end Superi

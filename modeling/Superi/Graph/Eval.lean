import Superi.Core.Time
import Superi.Graph.Dag

/-!
# Eval — the identity of evaluator work, and what an edit makes stale

A request names an output endpoint, a frame and a region.  What may be retained for it carries the
graph and the published revision it was evaluated from, and a digest over everything upstream.  An
edit between two published revisions is summarized by the nodes whose retained results it affects.
-/

namespace Superi
namespace Graph

open Core

/-- Half-open pixel bounds; no edge lies before the one it closes. -/
structure PixelBounds where
  minX : Int
  minY : Int
  maxX : Int
  maxY : Int
  horizontal : minX ≤ maxX
  vertical : minY ≤ maxY
  deriving DecidableEq, Repr

/-- One exact unit of evaluator work. -/
structure EvaluationKey where
  output : GraphEndpoint
  frame : RationalTime
  region : PixelBounds
  deriving DecidableEq, Repr

/-- The digest of topology, node state, request scope, behavior and upstream lineage. -/
structure EvaluationCacheKey where
  digest : BitVec 256
  deriving DecidableEq, Repr

/-- The retention tier of one reusable evaluator value. -/
inductive EvaluationCacheEntryKind
  | finalFrame
  | intermediateNode
  deriving DecidableEq, Repr

/-- The graph-owned identity of one retained value.  Evaluation outside a published snapshot has no
revision. -/
structure EvaluationCacheIdentity where
  graphId : GraphId
  graphRevision : Option Nat
  graphKey : EvaluationCacheKey
  evaluationKey : EvaluationKey
  deriving DecidableEq, Repr

/-- The node whose output an identity is about. -/
def EvaluationCacheIdentity.nodeId (identity : EvaluationCacheIdentity) : NodeId :=
  identity.evaluationKey.output.nodeId

/-- The cache lineage affected by one published edit interval; nodes are in identity order. -/
structure GraphEditInvalidation where
  graphId : GraphId
  fromRevision : Nat
  toRevision : Nat
  roots : List NodeId
  affectedNodes : List NodeId
  ordered : affectedNodes.Pairwise fun left right => compare left right = .lt
  deriving DecidableEq

/-- Whether one node has affected retained output.  The source searches the ordered list by
bisection. -/
def GraphEditInvalidation.affects (invalidation : GraphEditInvalidation) (nodeId : NodeId) : Bool :=
  decide (nodeId ∈ invalidation.affectedNodes)

end Graph
end Superi

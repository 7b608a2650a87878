import Superi.Graph.Dag
import Superi.Graph.Expr
import Superi.Graph.Instance

/-!
# Mutate — atomic graph transactions

Ordered mutations are applied to a private candidate; one immutable revision is published only
after every mutation succeeded.  A second dependency graph, that of the parameter drivers, is
checked beside the graph of the nodes.
-/

namespace Superi
namespace Graph

open Core Result Keyed

/-! ## Transactions -/

/-- One mutation of an ordered transaction. -/
inductive GraphMutation (T : Type)
  | add (nodeId : NodeId) (node : EditableNode T) (position : Nat)
  | remove (nodeId : NodeId)
  | connect (edge : GraphEdge)
  | disconnect (edgeId : EdgeId)
  | reorder (nodeId : NodeId) (position : Nat)
  | setParameter (nodeId : NodeId) (parameterId : ParameterId) (value : TypedParameterValue T)
  | setParameterDriver (target : ParameterAddress) (driver : ParameterDriver)
  | clearParameterDriver (target : ParameterAddress)

/-- An ordered transaction against one exact revision. -/
structure GraphTransaction (T : Type) where
  expectedRevision : Nat
  mutations : List (GraphMutation T)

structure GraphState (T : Type) where
  dag : DirectedAcyclicGraph (EditableNode T)
  nodeOrder : List NodeId
  parameterDrivers : Std.ExtTreeMap ParameterAddress ParameterDriver

/-! ## Errors -/

def mutationError (category : ErrorCategory) (operation message : String) : Error :=
  (Error.new category .userCorrectable message).withContext ⟨"superi-graph.mutation", operation⟩

def missingNodeError (operation : String) : Error :=
  mutationError .notFound operation "graph node does not exist"

def positionError (operation : String) : Error :=
  mutationError .invalidInput operation "graph presentation position is out of bounds"

def missingPortError : Error :=
  mutationError .notFound "connect" "graph endpoint port is not bound to the node schema"

/-! ## Parameters of a state -/

namespace GraphState

variable {T : Type}

/-- The parameter an address names. -/
def parameter (state : GraphState T) (address : ParameterAddress) : Option (EditableParameter T) :=
  (state.dag.node address.nodeId).bind fun node => node.parameter address.parameterId

/-- The dependency graph of drivers: a driven parameter leads to what its driver reads. -/
def dependencyGraph (drivers : Std.ExtTreeMap ParameterAddress ParameterDriver) :
    Digraph.FiniteDigraph ParameterAddress where
  succ := fun address =>
    match drivers[address]? with
    | some driver => driver.addresses
    | none => []
  support := drivers.keys.toFinset
  succ_eq_nil := by
    intro address haddress
    have hnone : drivers[address]? = none := by simpa using haddress
    simp [hnone]

end GraphState

section Mutations

variable {T : Type}

def parameterValueType (state : GraphState T) (address : ParameterAddress) (operation : String) :
    Except Error ValueTypeId :=
  okOr ((state.parameter address).map fun parameter => parameter.value.valueType)
    (mutationError .notFound operation "graph parameter dependency does not exist")

/-- One dependency exists with the type the driver expects; a link copies its own type. -/
def validateDependency (state : GraphState T) (driver : ParameterDriver) (targetType : ValueTypeId)
    (dependency : ParameterReference) : Except Error Unit := do
  let sourceType ← parameterValueType state dependency.address "set_parameter_driver"
  rejectIf (sourceType ≠ dependency.valueType)
    (mutationError .invalidInput "set_parameter_driver"
      "parameter dependency type does not match its source")
  rejectIf (driver.asLink ≠ none ∧ sourceType ≠ targetType)
    (mutationError .invalidInput "set_parameter_driver"
      "direct parameter link requires equal source and target types")

def validateParameterDriver (state : GraphState T) (target : ParameterAddress)
    (driver : ParameterDriver) : Except Error Unit := do
  let targetType ← parameterValueType state target "set_parameter_driver"
  rejectIf (targetType ≠ driver.valueType)
    (mutationError .invalidInput "set_parameter_driver"
      "parameter driver result type does not match its target")
  driver.dependencies.forM (validateDependency state driver targetType)

/-- A driver is attached to the node or reads one of its parameters. -/
def refersTo (entry : ParameterAddress × ParameterDriver) (nodeId : NodeId) : Bool :=
  decide (entry.1.nodeId = nodeId) ||
    entry.2.dependencies.any fun dependency => decide (dependency.address.nodeId = nodeId)

def validateNodeDriverRemoval (state : GraphState T) (nodeId : NodeId) : Except Error Unit :=
  rejectIf ((state.parameterDrivers.toList.any fun entry => refersTo entry nodeId) = true)
    ((mutationError .conflict "remove"
      "node remains referenced by an authored parameter driver").withContext
      ⟨"superi-graph.mutation", "remove"⟩)

/-- Whether following drivers from `current` leads to `target`.  The pending list of the search is
the call stack of the recursion over dependencies. -/
def parameterDependencyReaches (drivers : Std.ExtTreeMap ParameterAddress ParameterDriver)
    (current target : ParameterAddress) : Bool :=
  let graph := GraphState.dependencyGraph drivers
  graph.search target (graph.succ current) ∅

/-- The number of edges into one port. -/
def incomingCount (dag : DirectedAcyclicGraph (EditableNode T)) (endpoint : GraphEndpoint) : Nat :=
  match dag.incomingEdgeIds endpoint.nodeId with
  | none => 0
  | some edges => edges.toList.countP fun edgeId =>
      decide ((dag.edge edgeId).map (fun edge => edge.destination.portId) = some endpoint.portId)

def validateStoredConnection (dag : DirectedAcyclicGraph (EditableNode T)) (edge : GraphEdge) :
    Except Error Unit := do
  let source ← okOr (dag.node edge.source.nodeId) (missingNodeError "connect")
  let target ← okOr (dag.node edge.destination.nodeId) (missingNodeError "connect")
  let sourceName ← okOr (source.outputName edge.source.portId) missingPortError
  let targetName ← okOr (target.inputName edge.destination.portId) missingPortError
  validateConnection source.schema sourceName target.schema targetName
  -- the source's `expect`: a bound input is declared
  let port ← okOr (target.schema.input targetName) missingPortError
  rejectIf (port.cardinality ≠ .variadic ∧ 1 ≤ incomingCount dag edge.destination)
    (mutationError .conflict "connect" "target input already has its maximum connection count")

/-! ## Mutations -/

def applyMutation (state : GraphState T) : GraphMutation T → Except Error (GraphState T)
  | .add nodeId node position => do
      rejectIf (state.nodeOrder.length < position) (positionError "add")
      let dag ← state.dag.insertNode nodeId node
      pure { state with dag, nodeOrder := state.nodeOrder.insertIdx position nodeId }
  | .remove nodeId => do
      validateNodeDriverRemoval state nodeId
      let dag ← state.dag.removeNode nodeId
      pure { state with dag, nodeOrder := state.nodeOrder.erase nodeId }
  | .connect edge => do
      validateStoredConnection state.dag edge
      let dag ← state.dag.insertEdge edge
      pure { state with dag }
  | .disconnect edgeId => do
      let (dag, _) ← state.dag.removeEdge edgeId
      pure { state with dag }
  | .reorder nodeId position => do
      rejectIf (nodeId ∉ state.nodeOrder) (missingNodeError "reorder")
      rejectIf (state.nodeOrder.length ≤ position) (positionError "reorder")
      pure { state with nodeOrder := (state.nodeOrder.erase nodeId).insertIdx position nodeId }
  | .setParameter nodeId parameterId value => do
      let node ← okOr (state.dag.node nodeId) (missingNodeError "set_parameter")
      let node ← node.setParameter parameterId value
      pure { state with dag := state.dag.setNode nodeId node }
  | .setParameterDriver target driver => do
      validateParameterDriver state target driver
      let parameterDrivers := state.parameterDrivers.insert target driver
      rejectIf (parameterDependencyReaches parameterDrivers target target = true)
        (mutationError .conflict "set_parameter_driver"
          "parameter driver would create a dependency cycle")
      pure { state with parameterDrivers }
  | .clearParameterDriver target => do
      let _ ← parameterValueType state target "clear_parameter_driver"
      rejectIf (target ∉ state.parameterDrivers)
        (mutationError .notFound "clear_parameter_driver"
          "parameter does not have an authored driver")
      pure { state with parameterDrivers := state.parameterDrivers.erase target }

end Mutations

/-! ## The editable graph -/

/-- An immutable revisioned view. -/
structure GraphSnapshot (T : Type) where
  revision : Nat
  state : GraphState T

/-- The owner that publishes immutable snapshots. -/
structure EditableGraph (T : Type) where
  revision : Nat
  state : GraphState T

namespace EditableGraph

variable {T : Type}

/-- An empty graph at revision zero. -/
def new (id : GraphId) : EditableGraph T where
  revision := 0
  state := { dag := .new id, nodeOrder := [], parameterDrivers := ∅ }

def snapshot (graph : EditableGraph T) : GraphSnapshot T where
  revision := graph.revision
  state := graph.state

def applyContext : ErrorContext := ⟨"superi-graph.mutation", "apply"⟩

/-- Apply every mutation of a transaction or none of them. -/
def apply (graph : EditableGraph T) (transaction : GraphTransaction T) :
    Except Error (EditableGraph T) := do
  rejectIf (transaction.expectedRevision ≠ graph.revision)
    ((Error.new .conflict .userCorrectable
      "graph transaction revision is stale").withContext applyContext)
  if transaction.mutations.isEmpty then pure graph
  else do
    rejectIf (18446744073709551615 ≤ graph.revision)
      ((Error.new .resourceExhausted .terminal
        "graph mutation revision space is exhausted").withContext applyContext)
    let state ← transaction.mutations.foldlM
      (fun state mutation => withErrorContext (applyMutation state mutation) applyContext)
      graph.state
    pure { revision := graph.revision + 1, state }

end EditableGraph

/-! ## Parameter evaluation -/

def evaluateContext : ErrorContext := ⟨"superi-graph.mutation", "evaluate_parameter"⟩

def internalEvaluationError (message : String) : Error :=
  (Error.new .internal .terminal message).withContext evaluateContext

def cycleMessage : String := "published parameter state contains a dependency cycle"
def danglingMessage : String := "published parameter driver references a missing parameter"
def missingLinkMessage : String := "parameter link dependency did not produce a value"
def missingVariableMessage : String := "expression dependency did not produce a value"

/-- The parameters resolved so far, and the order in which they completed. -/
structure Resolution (U : Type) where
  evaluated : Std.ExtTreeMap ParameterAddress (TypedParameterValue U)
  completion : List ParameterAddress

def Resolution.complete {U : Type} (memo : Resolution U) (address : ParameterAddress)
    (value : TypedParameterValue U) : TypedParameterValue U × Resolution U :=
  (value, { evaluated := memo.evaluated.insert address value
            completion := memo.completion ++ [address] })

section Evaluation

variable {T U F : Type} [Scalar F] [ExpressionParameterValue U F]

/-- The value of a driver whose dependencies are resolved. -/
def ParameterDriver.value (F : Type) [Scalar F] [ExpressionParameterValue U F]
    (driver : ParameterDriver) (memo : Resolution U) : Except Error (TypedParameterValue U) :=
  match driver.kind with
  | .link source =>
      okOr memo.evaluated[source.address]? (internalEvaluationError missingLinkMessage)
  | .expression expression => do
      let scalar : F ← expression.evaluateWith fun _ reference => do
        let value ← okOr memo.evaluated[reference.address]?
          (internalEvaluationError missingVariableMessage)
        withErrorContext (ExpressionParameterValue.toExpressionScalar value.payload
          reference.valueType) evaluateContext
      let payload ← withErrorContext
        (ExpressionParameterValue.fromExpressionScalar driver.valueType scalar) evaluateContext
      pure ⟨driver.valueType, payload⟩

/-- Resolve one parameter.  `active` holds the parameters being resolved around it. -/
def resolveParameter (F : Type) [Scalar F] [ExpressionParameterValue U F] (state : GraphState T)
    (project : ParameterAddress → TypedParameterValue T → Except Error U)
    (active : Finset ParameterAddress) (address : ParameterAddress) (memo : Resolution U) :
    Except Error (TypedParameterValue U × Resolution U) :=
  match memo.evaluated[address]? with
  | some value => pure (value, memo)
  | none =>
      if _hactive : address ∈ active then .error (internalEvaluationError cycleMessage)
      else
        match state.parameter address with
        | none => .error (internalEvaluationError danglingMessage)
        | some parameter =>
            match _hdriver : state.parameterDrivers[address]? with
            | none => do
                let payload ← withErrorContext (project address parameter.value) evaluateContext
                pure (memo.complete address ⟨parameter.value.valueType, payload⟩)
            | some driver => do
                let memo ← driver.dependencies.foldlM (fun memo dependency => do
                  let (_, memo) ← resolveParameter F state project (insert address active)
                    dependency.address memo
                  pure memo) memo
                let value ← driver.value F memo
                pure (memo.complete address value)
termination_by (state.parameterDrivers.keys.toFinset \ active).card
decreasing_by
  have hin : address ∈ state.parameterDrivers.keys.toFinset := by
    simpa using mem_of_getElem?_eq_some _hdriver
  refine Finset.card_lt_card ⟨Finset.sdiff_subset_sdiff (Finset.Subset.refl _)
    (Finset.subset_insert _ _), fun hback => ?_⟩
  simpa using hback (Finset.mem_sdiff.2 ⟨hin, _hactive⟩)

/-- A resolved parameter: its value and the parameters evaluated for it, in completion order. -/
structure ParameterEvaluation (U : Type) where
  target : ParameterAddress
  value : TypedParameterValue U
  evaluatedParameters : List ParameterAddress

/-- Resolve one parameter after projecting stored literals into an expression-capable domain. -/
def GraphSnapshot.evaluateParameterWith (F : Type) [Scalar F] [ExpressionParameterValue U F]
    (snapshot : GraphSnapshot T) (target : ParameterAddress)
    (project : ParameterAddress → TypedParameterValue T → Except Error U) :
    Except Error (ParameterEvaluation U) := do
  rejectIf (snapshot.state.parameter target = none)
    (mutationError .notFound "evaluate_parameter" "requested graph parameter does not exist")
  let (value, memo) ← resolveParameter F snapshot.state project ∅ target ⟨∅, []⟩
  pure { target, value, evaluatedParameters := memo.completion }

end Evaluation

end Graph
end Superi

import Superi.Core.Ids
import Superi.Graph.Node

/-!
# Expr — typed parameter links and pure expressions

A driver computes one parameter from others: a link copies its source, an expression runs a checked
postfix program over finite scalars.  The scalars are a parameter of the development.
-/

namespace Superi
namespace Graph

open Core Result Keyed

/-! ## References -/

/-- One addressable parameter inside a graph: parameter identities are node-local. -/
structure ParameterAddress where
  nodeId : NodeId
  parameterId : ParameterId
  deriving DecidableEq, Repr

instance : Ord ParameterAddress :=
  ⟨compareLex (compareOn ParameterAddress.nodeId) (compareOn ParameterAddress.parameterId)⟩

instance : Std.TransOrd ParameterAddress :=
  inferInstanceAs (Std.TransCmp
    (compareLex (compareOn ParameterAddress.nodeId) (compareOn ParameterAddress.parameterId)))

instance : Std.LawfulEqOrd ParameterAddress :=
  lawfulEqCmp_compareLex fun a b hnode hparameter => by
    cases a
    cases b
    simp_all

/-- One dependency on another parameter, with the type its author expects. -/
structure ParameterReference where
  address : ParameterAddress
  valueType : ValueTypeId
  deriving DecidableEq, Repr

instance : Ord ParameterReference :=
  ⟨compareLex (compareOn ParameterReference.address) (compareOn ParameterReference.valueType)⟩

instance : Std.TransOrd ParameterReference :=
  inferInstanceAs (Std.TransCmp
    (compareLex (compareOn ParameterReference.address) (compareOn ParameterReference.valueType)))

instance : Std.LawfulEqOrd ParameterReference :=
  lawfulEqCmp_compareLex fun a b haddress htype => by
    cases a
    cases b
    simp_all

/-! ## Programs -/

abbrev ExpressionVariableName := Name .variable

/-- One checked postfix operation. -/
inductive ExpressionInstruction
  | constant (literal : String)
  | variable (name : ExpressionVariableName)
  | negate
  | add
  | subtract
  | multiply
  | divide
  deriving DecidableEq, Repr

/-- Editable source with its checked program. -/
structure ScalarExpression where
  source : String
  variables' : Std.ExtTreeSet ExpressionVariableName
  instructions : List ExpressionInstruction
  deriving DecidableEq

/-- The scalars expressions compute with. -/
class Scalar (F : Type) where
  literal : String → F
  neg : F → F
  add : F → F → F
  sub : F → F → F
  mul : F → F → F
  div : F → F → F
  isFinite : F → Bool
  isZero : F → Bool

def expressionError (operation message : String) : Error :=
  (Error.new .invalidInput .userCorrectable message).withContext
    ⟨"superi-graph.expression", operation⟩

def invalidProgramError : Error :=
  (Error.new .internal .terminal "checked parameter expression program is invalid").withContext
    ⟨"superi-graph.expression", "evaluate"⟩

namespace ScalarExpression

variable {F : Type} [Scalar F]

/-- Replace the two topmost values, the upper one being the right operand. -/
def applyBinary (operation : F → F → Except Error F) : List F → Except Error (List F)
  | right :: left :: stack => do
      let value ← operation left right
      pure (value :: stack)
  | _ => .error invalidProgramError

/-- The stack behind one instruction; its head is the top. -/
def execute (resolve : ExpressionVariableName → Except Error F) (stack : List F) :
    ExpressionInstruction → Except Error (List F)
  | .constant literal => pure (Scalar.literal literal :: stack)
  | .variable name => do
      let value ← resolve name
      rejectIf (Scalar.isFinite value = false)
        (expressionError "evaluate" "expression variable resolved to a nonfinite value")
      pure (value :: stack)
  | .negate =>
      match stack with
      | value :: rest => pure (Scalar.neg value :: rest)
      | [] => .error invalidProgramError
  | .add => applyBinary (fun left right => pure (Scalar.add left right)) stack
  | .subtract => applyBinary (fun left right => pure (Scalar.sub left right)) stack
  | .multiply => applyBinary (fun left right => pure (Scalar.mul left right)) stack
  | .divide => applyBinary (fun left right => do
      rejectIf (Scalar.isZero right = true)
        (expressionError "evaluate" "parameter expression divides by zero")
      pure (Scalar.div left right)) stack

/-- Execute one instruction and keep the top of the stack finite. -/
def step (resolve : ExpressionVariableName → Except Error F) (stack : List F)
    (instruction : ExpressionInstruction) : Except Error (List F) := do
  let stack ← execute resolve stack instruction
  rejectIf ((stack.head?.map Scalar.isFinite).getD true = false)
    (expressionError "evaluate" "parameter expression produced a nonfinite value")
  pure stack

/-- Evaluate the program through a variable resolver. -/
def evaluateWith (expression : ScalarExpression)
    (resolve : ExpressionVariableName → Except Error F) : Except Error F := do
  let stack ← expression.instructions.foldlM (step resolve) []
  match stack with
  | [value] => pure value
  | _ => .error invalidProgramError

end ScalarExpression

/-! ## Drivers -/

/-- An expression with its variables bound to parameters. -/
structure ParameterExpression where
  program : ScalarExpression
  variables' : Std.ExtTreeMap ExpressionVariableName ParameterReference
  deriving DecidableEq

namespace ParameterExpression

variable {F : Type} [Scalar F]

/-- Resolve one bound variable to a finite value. -/
def resolveBound (expression : ParameterExpression)
    (resolve : ExpressionVariableName → ParameterReference → Except Error F)
    (name : ExpressionVariableName) : Except Error F := do
  -- the source's `expect`: compiled variables remain bound
  let reference ← okOr expression.variables'[name]? invalidProgramError
  let value ← resolve name reference
  rejectIf (Scalar.isFinite value = false)
    (expressionError "evaluate" "expression variable resolved to a nonfinite value")
  pure value

def evaluateWith (expression : ParameterExpression)
    (resolve : ExpressionVariableName → ParameterReference → Except Error F) : Except Error F :=
  expression.program.evaluateWith (expression.resolveBound resolve)

end ParameterExpression

inductive ParameterDriverKind
  | link (source : ParameterReference)
  | expression (expression : ParameterExpression)
  deriving DecidableEq

/-- One editable driver attached to a target parameter. -/
structure ParameterDriver where
  valueType : ValueTypeId
  kind : ParameterDriverKind
  deriving DecidableEq

namespace ParameterDriver

def asLink (driver : ParameterDriver) : Option ParameterReference :=
  match driver.kind with
  | .link source => some source
  | .expression _ => none

/-- The references a driver reads, each once, in address order. -/
def dependencies (driver : ParameterDriver) : List ParameterReference :=
  match driver.kind with
  | .link source => [source]
  | .expression expression => (Std.ExtTreeSet.ofList (valuesOf expression.variables')).toList

/-- The addresses a driver reads. -/
def addresses (driver : ParameterDriver) : List ParameterAddress :=
  driver.dependencies.map ParameterReference.address

end ParameterDriver

/-- Conversion between a payload and the scalars of expressions. -/
class ExpressionParameterValue (U F : Type) where
  toExpressionScalar : U → ValueTypeId → Except Error F
  fromExpressionScalar : ValueTypeId → F → Except Error U

end Graph
end Superi

import Superi.Core.Error
import Superi.Lib.Keyed

/-!
# Node — versioned node schemas

A schema declares the ports, parameters and evaluation behavior of one version of a node family.
Fields are kept under their own names, so a declaration is found exactly by the name it carries.
-/

namespace Superi
namespace Graph

open Core Result Keyed

/-! ## Names -/

/-- What a canonical name stands for. -/
inductive NameKind
  | nodeType
  | valueType
  | capability
  | port
  | parameter
  | variable
  deriving DecidableEq, Repr

/-- A canonical name of one kind, ordered by its text. -/
structure Name (kind : NameKind) where
  text : String
  deriving DecidableEq, Repr

namespace Name

variable {kind : NameKind}

instance : Ord (Name kind) := ⟨compareOn text⟩

instance : Std.TransOrd (Name kind) :=
  inferInstanceAs (Std.TransCmp (compareOn text))

instance : Std.LawfulEqOrd (Name kind) :=
  lawfulEqCmp_compareOn fun a b htext => by
    cases a
    cases b
    simp_all

end Name

abbrev NodeTypeId := Name .nodeType
abbrev ValueTypeId := Name .valueType
abbrev CapabilityId := Name .capability
abbrev PortName := Name .port
abbrev ParameterName := Name .parameter

/-! ## Versions -/

structure SemanticVersion where
  major : Nat
  minor : Nat
  patch : Nat
  preRelease : Option String
  buildMetadata : Option String
  deriving DecidableEq, Repr

/-- A release version. -/
def SemanticVersion.new (major minor patch : Nat) : SemanticVersion :=
  { major, minor, patch, preRelease := none, buildMetadata := none }

def SemanticVersion.display (version : SemanticVersion) : String :=
  s!"{version.major}.{version.minor}.{version.patch}" ++
    (version.preRelease.map ("-" ++ ·)).getD "" ++ (version.buildMetadata.map ("+" ++ ·)).getD ""

/-- The exact identity of one version of a node schema. -/
structure NodeSchemaId where
  nodeType : NodeTypeId
  schemaVersion : SemanticVersion
  deriving DecidableEq, Repr

def NodeSchemaId.display (id : NodeSchemaId) : String :=
  id.nodeType.text ++ "@" ++ id.schemaVersion.display

/-! ## Declarations -/

/-- The number of values accepted by a port. -/
inductive PortCardinality
  | single
  | optional
  | variadic
  deriving DecidableEq, Repr

structure PortSchema where
  name : PortName
  valueType : ValueTypeId
  cardinality : PortCardinality
  deriving DecidableEq, Repr

structure ParameterSchema where
  name : ParameterName
  valueType : ValueTypeId
  animatable : Bool
  deriving DecidableEq, Repr

inductive TimeBehavior
  | invariant
  | currentFrame
  | frameWindow (framesBefore framesAfter : Nat)
  | unbounded
  deriving DecidableEq, Repr

inductive RoiBehavior
  | fullFrame
  | inputBounds
  | expanded (pixels : Nat)
  | custom
  deriving DecidableEq, Repr

inductive ColorPrimaries
  | unspecified | bt709 | bt2020 | displayP3 | acesAp0 | acesAp1
  deriving DecidableEq, Repr

inductive TransferFunction
  | unspecified | linear | srgb | bt709 | bt2020TenBit | bt2020TwelveBit | gamma22 | gamma24 | pq
  | hlg
  deriving DecidableEq, Repr

inductive MatrixCoefficients
  | unspecified | rgb | bt601 | bt709 | bt2020NonConstant | bt2020Constant
  deriving DecidableEq, Repr

inductive ColorRange
  | unspecified | full | limited
  deriving DecidableEq, Repr

structure ColorSpace where
  primaries : ColorPrimaries
  transfer : TransferFunction
  matrix : MatrixCoefficients
  range : ColorRange
  deriving DecidableEq, Repr

inductive ColorRequirements
  | notApplicable
  | tagged
  | exact (space : ColorSpace)
  deriving DecidableEq, Repr

inductive Determinism
  | deterministic
  | seeded
  | nonDeterministic
  deriving DecidableEq, Repr

/-- The finest reusable evaluation result a node permits. -/
inductive CachePolicy
  | disabled
  | static
  | perFrame
  | perRegion
  deriving DecidableEq, Repr

structure NodeBehavior where
  time : TimeBehavior
  roi : RoiBehavior
  color : ColorRequirements
  determinism : Determinism
  cachePolicy : CachePolicy
  deriving DecidableEq, Repr

/-! ## Schemas -/

/-- Every declaration is stored under its own name. -/
def NamedBy {κ α : Type} [Ord κ] [Std.TransOrd κ] (nameOf : α → κ) (map : Std.ExtTreeMap κ α) :
    Prop :=
  ∀ (name : κ) (declaration : α), map[name]? = some declaration → nameOf declaration = name

/-- One immutable, versioned node definition. -/
structure NodeSchema where
  id : NodeSchemaId
  inputs : Std.ExtTreeMap PortName PortSchema
  outputs : Std.ExtTreeMap PortName PortSchema
  parameters : Std.ExtTreeMap ParameterName ParameterSchema
  behavior : NodeBehavior
  requiredCapabilities : Std.ExtTreeSet CapabilityId
  inputsNamed : NamedBy PortSchema.name inputs
  outputsNamed : NamedBy PortSchema.name outputs
  parametersNamed : NamedBy ParameterSchema.name parameters
  deriving DecidableEq

def duplicateFieldError (id : NodeSchemaId) (collection field : String) : Error :=
  (Error.new .invalidInput .userCorrectable
    s!"node schema {id.display} declares duplicate {collection} field {field}").withContext
    ⟨"superi-graph.node-schema", "create"⟩

def collectField {kind : NameKind} {α : Type} (id : NodeSchemaId) (collection : String)
    (nameOf : α → Name kind) (values : Std.ExtTreeMap (Name kind) α) (field : α) :
    Except Error (Std.ExtTreeMap (Name kind) α) := do
  rejectIf (nameOf field ∈ values) (duplicateFieldError id collection (nameOf field).text)
  pure (values.insert (nameOf field) field)

/-- Collect declarations under their names; a name may occur once. -/
def collectFields {kind : NameKind} {α : Type} (id : NodeSchemaId) (collection : String)
    (nameOf : α → Name kind) (fields : List α) : Except Error (Std.ExtTreeMap (Name kind) α) :=
  fields.foldlM (collectField id collection nameOf) ∅

def collectPorts (id : NodeSchemaId) (collection : String) (ports : List PortSchema) :
    Except Error (Std.ExtTreeMap PortName PortSchema) :=
  collectFields id collection PortSchema.name ports

def collectParameters (id : NodeSchemaId) (parameters : List ParameterSchema) :
    Except Error (Std.ExtTreeMap ParameterName ParameterSchema) :=
  collectFields id "parameters" ParameterSchema.name parameters

/-- Collected fields are stored under their names, all of them and nothing else. -/
theorem collectFields_spec {kind : NameKind} {α : Type} {id : NodeSchemaId} {collection : String}
    {nameOf : α → Name kind} {fields : List α} {map : Std.ExtTreeMap (Name kind) α}
    (h : collectFields id collection nameOf fields = .ok map) :
    NamedBy nameOf map ∧ ∀ field, map[nameOf field]? = some field ↔ field ∈ fields := by
  have hfold : ∀ (fields : List α) (start final : Std.ExtTreeMap (Name kind) α),
      NamedBy nameOf start → fields.foldlM (collectField id collection nameOf) start = .ok final →
      NamedBy nameOf final ∧ ∀ field, final[nameOf field]? = some field ↔
        start[nameOf field]? = some field ∨ field ∈ fields := by
    intro fields
    induction fields with
    | nil =>
        intro start final hstart hfold
        rw [List.foldlM_nil, pure_eq_ok] at hfold
        subst hfold
        exact ⟨hstart, fun field => by simp⟩
    | cons head rest ih =>
        intro start final hstart hfold
        simp only [List.foldlM_cons, collectField, bind_eq_ok, rejectIf_eq_ok, pure_eq_ok] at hfold
        obtain ⟨_, ⟨_, hnew, rfl⟩, hrest⟩ := hfold
        have hfresh : start[nameOf head]? = none := Std.ExtTreeMap.getElem?_eq_none hnew
        have hinserted : NamedBy nameOf (start.insert (nameOf head) head) := by
          intro name field hfield
          rw [getElem?_insert_eq] at hfield
          split at hfield
          · rename_i heq
            rw [heq, Option.some.inj hfield]
          · exact hstart name field hfield
        obtain ⟨hnamed, hmem⟩ := ih _ final hinserted hrest
        refine ⟨hnamed, fun field => ?_⟩
        rw [hmem, getElem?_insert_eq, List.mem_cons]
        by_cases hname : nameOf field = nameOf head
        · rw [if_pos hname, hname, hfresh, Option.some.injEq, eq_comm (a := head)]
          simp
        · rw [if_neg hname]
          have hne : field ≠ head := fun heq => hname (congrArg nameOf heq)
          simp [hne]
  obtain ⟨hnamed, hmem⟩ := hfold fields ∅ map (by intro _ _ hnone; simp at hnone) h
  exact ⟨hnamed, fun field => by simpa using hmem field⟩

namespace NodeSchema

/-- Create a schema; a field may be declared once in each namespace. -/
def new (id : NodeSchemaId) (inputs outputs : List PortSchema) (parameters : List ParameterSchema)
    (behavior : NodeBehavior) (requiredCapabilities : Std.ExtTreeSet CapabilityId) :
    Except Error NodeSchema :=
  match hinputs : collectPorts id "inputs" inputs with
  | .error error => .error error
  | .ok inputMap =>
      match houtputs : collectPorts id "outputs" outputs with
      | .error error => .error error
      | .ok outputMap =>
          match hparameters : collectParameters id parameters with
          | .error error => .error error
          | .ok parameterMap => .ok {
              id, inputs := inputMap, outputs := outputMap, parameters := parameterMap, behavior
              requiredCapabilities
              inputsNamed := (collectFields_spec hinputs).1
              outputsNamed := (collectFields_spec houtputs).1
              parametersNamed := (collectFields_spec hparameters).1 }

def input (schema : NodeSchema) (name : PortName) : Option PortSchema := schema.inputs[name]?

def output (schema : NodeSchema) (name : PortName) : Option PortSchema := schema.outputs[name]?

def parameter (schema : NodeSchema) (name : ParameterName) : Option ParameterSchema :=
  schema.parameters[name]?

end NodeSchema

/-! ## Connections -/

def connectionError : Error :=
  (Error.new .invalidInput .userCorrectable
    "connection is incompatible with the registered node schemas").withContext
    ⟨"superi-graph.port-validation", "validate_connection"⟩

/-- A source output fits a target input when both are declared with one value type. -/
def validateConnection (sourceSchema : NodeSchema) (sourceOutput : PortName)
    (targetSchema : NodeSchema) (targetInput : PortName) : Except Error Unit := do
  let source ← okOr (sourceSchema.output sourceOutput) connectionError
  let target ← okOr (targetSchema.input targetInput) connectionError
  rejectIf (source.valueType ≠ target.valueType) connectionError

end Graph
end Superi

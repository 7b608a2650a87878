import Superi.Core.Ids
import Superi.Graph.Node

/-!
# Instance — editable nodes bound to a schema

A node instance gives every declared port and parameter one stable identity.  The bindings are
checked when the node is created, and the node carries what was checked.
-/

namespace Superi
namespace Graph

open Core Result Keyed

/-! ## Parts of an instance -/

/-- One opaque payload tagged with its graph value type. -/
structure TypedParameterValue (T : Type) where
  valueType : ValueTypeId
  payload : T
  deriving DecidableEq, Repr

/-- An instance port identity bound to a schema-local name. -/
structure InstancePort where
  id : PortId
  name : PortName
  deriving DecidableEq, Repr

structure EditableParameter (T : Type) where
  id : ParameterId
  name : ParameterName
  value : TypedParameterValue T
  deriving DecidableEq, Repr

/-! ## Binding declared names -/

/-- Every declared name is bound by exactly one identity. -/
structure Bound {kind : NameKind} {idKind : IdentifierKind} {δ α : Type}
    (declared : Std.ExtTreeMap (Name kind) δ) (nameOf : α → Name kind)
    (values : Std.ExtTreeMap (Identifier idKind) α) : Prop where
  known : ∀ (id : Identifier idKind) (value : α), values[id]? = some value →
    nameOf value ∈ declared
  unique : ∀ (id id' : Identifier idKind) (value value' : α), values[id]? = some value →
    values[id']? = some value' → nameOf value = nameOf value' → id = id'
  complete : ∀ name : Name kind, name ∈ declared →
    ∃ (id : Identifier idKind) (value : α), values[id]? = some value ∧ nameOf value = name

def createContext : ErrorContext := ⟨"superi-graph.mutation", "create_node"⟩

/-- A rejected binding; the error is reported from two frames of the constructor. -/
def bindingError (message : String) : Error :=
  ((Error.new .invalidInput .userCorrectable message).withContext createContext).withContext
    createContext

/-- The texts of the four ways a collection of bindings can be wrong. -/
structure BindingTexts where
  unknown : String
  duplicateName : String
  duplicateId : String
  missing : String

/-- The names bound so far and the instances bound to them. -/
structure Bindings (kind : NameKind) (idKind : IdentifierKind) (α : Type) where
  names : Std.ExtTreeSet (Name kind)
  values : Std.ExtTreeMap (Identifier idKind) α

section Binding

variable {kind : NameKind} {idKind : IdentifierKind} {δ α : Type}

/-- Bind one instance. -/
def bindInstance (texts : BindingTexts) (declared : Std.ExtTreeMap (Name kind) δ)
    (idOf : α → Identifier idKind) (nameOf : α → Name kind) (check : α → Except Error Unit)
    (bindings : Bindings kind idKind α) (item : α) : Except Error (Bindings kind idKind α) := do
  rejectIf (nameOf item ∉ declared) (bindingError texts.unknown)
  rejectIf (nameOf item ∈ bindings.names) (bindingError texts.duplicateName)
  check item
  rejectIf (idOf item ∈ bindings.values) (bindingError texts.duplicateId)
  pure { names := bindings.names.insert (nameOf item)
         values := bindings.values.insert (idOf item) item }

/-- Bind all instances of one collection. -/
def bindInstances (texts : BindingTexts) (declared : Std.ExtTreeMap (Name kind) δ)
    (idOf : α → Identifier idKind) (nameOf : α → Name kind) (check : α → Except Error Unit)
    (items : List α) : Except Error (Std.ExtTreeMap (Identifier idKind) α) := do
  let bindings ← items.foldlM (bindInstance texts declared idOf nameOf check) ⟨∅, ∅⟩
  rejectIf (∃ name ∈ declared.keys, name ∉ bindings.names) (bindingError texts.missing)
  pure bindings.values

/-- What the binding loop keeps: the names are those of the instances, each bound once, and every
instance passed its check. -/
structure Bindings.Sound (declared : Std.ExtTreeMap (Name kind) δ) (idOf : α → Identifier idKind)
    (nameOf : α → Name kind) (check : α → Except Error Unit)
    (bindings : Bindings kind idKind α) : Prop where
  known : ∀ (id : Identifier idKind) (value : α), bindings.values[id]? = some value →
    nameOf value ∈ declared
  ids : ∀ (id : Identifier idKind) (value : α), bindings.values[id]? = some value → idOf value = id
  checked : ∀ (id : Identifier idKind) (value : α), bindings.values[id]? = some value →
    check value = .ok ()
  unique : ∀ (id id' : Identifier idKind) (value value' : α), bindings.values[id]? = some value →
    bindings.values[id']? = some value' → nameOf value = nameOf value' → id = id'
  names : ∀ name : Name kind, name ∈ bindings.names ↔
    ∃ (id : Identifier idKind) (value : α), bindings.values[id]? = some value ∧ nameOf value = name

variable {texts : BindingTexts} {declared : Std.ExtTreeMap (Name kind) δ}
  {idOf : α → Identifier idKind} {nameOf : α → Name kind} {check : α → Except Error Unit}

theorem Bindings.Sound.bindInstance {bindings bindings' : Bindings kind idKind α} {item : α}
    (h : bindings.Sound declared idOf nameOf check)
    (hok : bindInstance texts declared idOf nameOf check bindings item = .ok bindings') :
    bindings'.Sound declared idOf nameOf check := by
  simp only [Graph.bindInstance, bind_eq_ok, rejectIf_eq_ok, not_not, pure_eq_ok] at hok
  obtain ⟨_, hdeclared, _, hname, ⟨⟩, hcheck, _, hid, rfl⟩ := hok
  -- every instance is an old one or the new one
  have hcases : ∀ (id : Identifier idKind) (value : α),
      (bindings.values.insert (idOf item) item)[id]? = some value →
      (id = idOf item ∧ value = item) ∨ bindings.values[id]? = some value := by
    intro id value hvalue
    rw [getElem?_insert_eq] at hvalue
    split at hvalue
    · exact .inl ⟨‹_›, (Option.some.inj hvalue).symm⟩
    · exact .inr hvalue
  have hother : ∀ (id : Identifier idKind) (value : α), bindings.values[id]? = some value →
      nameOf value ≠ nameOf item := fun id value hvalue heq =>
    hname ((h.names _).2 ⟨id, value, hvalue, heq⟩)
  refine ⟨fun id value hvalue => ?_, fun id value hvalue => ?_, fun id value hvalue => ?_,
    fun id id' value value' hvalue hvalue' heq => ?_, fun name => ?_⟩
  · rcases hcases id value hvalue with ⟨-, rfl⟩ | hold
    · exact hdeclared
    · exact h.known id value hold
  · rcases hcases id value hvalue with ⟨rfl, rfl⟩ | hold
    · rfl
    · exact h.ids id value hold
  · rcases hcases id value hvalue with ⟨-, rfl⟩ | hold
    · exact hcheck
    · exact h.checked id value hold
  · rcases hcases id value hvalue with ⟨rfl, rfl⟩ | hold <;>
      rcases hcases id' value' hvalue' with ⟨rfl, rfl⟩ | hold'
    · rfl
    · exact absurd heq.symm (hother id' value' hold')
    · exact absurd heq (hother id value hold)
    · exact h.unique id id' value value' hold hold' heq
  · rw [mem_insert_eq, h.names]
    constructor
    · rintro (rfl | ⟨id, value, hvalue, hval⟩)
      · exact ⟨idOf item, item, by simp, rfl⟩
      · refine ⟨id, value, ?_, hval⟩
        rw [getElem?_insert_eq, if_neg, hvalue]
        rintro rfl
        exact hid (mem_of_getElem?_eq_some hvalue)
    · rintro ⟨id, value, hvalue, rfl⟩
      rcases hcases id value hvalue with ⟨-, rfl⟩ | hold
      · exact .inl rfl
      · exact .inr ⟨id, value, hold, rfl⟩

/-- A successful binding binds every declared name exactly once. -/
theorem bindInstances_spec {items : List α} {values : Std.ExtTreeMap (Identifier idKind) α}
    (h : bindInstances texts declared idOf nameOf check items = .ok values) :
    Bound declared nameOf values ∧ ∀ (id : Identifier idKind) (value : α),
      values[id]? = some value → idOf value = id ∧ check value = .ok () := by
  simp only [bindInstances, bind_eq_ok, rejectIf_eq_ok, pure_eq_ok, not_exists, not_and,
    not_not] at h
  obtain ⟨bindings, hfold, _, hcomplete, rfl⟩ := h
  have hsound : bindings.Sound declared idOf nameOf check :=
    foldlM_ok_induction (fun bindings => bindings.Sound declared idOf nameOf check)
      (fun _ _ _ hsound hstep => hsound.bindInstance hstep)
      ⟨by simp, by simp, by simp, by simp, by simp⟩ hfold
  exact ⟨⟨hsound.known, hsound.unique, fun name hname =>
    (hsound.names name).1 (hcomplete name (by simpa using hname))⟩,
    fun id value hvalue => ⟨hsound.ids id value hvalue, hsound.checked id value hvalue⟩⟩

end Binding

/-! ## Collections of an instance -/

def portTexts : BindingTexts where
  unknown := "instance port is absent from the node schema"
  duplicateName := "schema-local port name is bound more than once"
  duplicateId := "instance port identity is bound more than once"
  missing := "node instance does not bind every schema port"

def parameterTexts : BindingTexts where
  unknown := "instance parameter is absent from the node schema"
  duplicateName := "schema-local parameter name is bound more than once"
  duplicateId := "parameter identity is bound more than once"
  missing := "node instance does not bind every schema parameter"

/-- Bind ports and keep their names. -/
def bindPorts (declarations : Std.ExtTreeMap PortName PortSchema) (ports : List InstancePort) :
    Except Error (Std.ExtTreeMap PortId InstancePort) :=
  bindInstances portTexts declarations InstancePort.id InstancePort.name (fun _ => pure ()) ports

/-- The value of a parameter has the declared type. -/
def checkParameterType {T : Type} (schema : NodeSchema) (parameter : EditableParameter T) :
    Except Error Unit :=
  rejectIf ((schema.parameter parameter.name).map ParameterSchema.valueType ≠
      some parameter.value.valueType)
    ((Error.new .invalidInput .userCorrectable
      "parameter value type does not match the node schema").withContext createContext)

def bindParameters {T : Type} (schema : NodeSchema) (parameters : List (EditableParameter T)) :
    Except Error (Std.ExtTreeMap ParameterId (EditableParameter T)) :=
  bindInstances parameterTexts schema.parameters EditableParameter.id EditableParameter.name
    (checkParameterType schema) parameters

/-- The names bound ports were given. -/
def namesOf (ports : Std.ExtTreeMap PortId InstancePort) : Std.ExtTreeMap PortId PortName :=
  ports.map fun _ port => port.name

theorem Bound.ports {declared : Std.ExtTreeMap PortName PortSchema}
    {ports : Std.ExtTreeMap PortId InstancePort} (h : Bound declared InstancePort.name ports) :
    Bound declared id (namesOf ports) := by
  have hget : ∀ (portId : PortId) (name : PortName),
      (namesOf ports)[portId]? = some name ↔
        ∃ port, ports[portId]? = some port ∧ port.name = name := by
    intro portId name
    rw [namesOf, Std.ExtTreeMap.getElem?_map, Option.map_eq_some_iff]
  refine ⟨fun portId name hname => ?_, fun portId portId' name name' hname hname' heq => ?_,
    fun name hname => ?_⟩
  · obtain ⟨port, hport, rfl⟩ := (hget portId name).1 hname
    exact h.known portId port hport
  · obtain ⟨port, hport, rfl⟩ := (hget portId name).1 hname
    obtain ⟨port', hport', rfl⟩ := (hget portId' name').1 hname'
    exact h.unique portId portId' port port' hport hport' heq
  · obtain ⟨portId, port, hport, hval⟩ := h.complete name hname
    exact ⟨portId, name, (hget portId name).2 ⟨port, hport, hval⟩, rfl⟩

/-! ## Instances -/

/-- The parameters of an instance: each stored under its identity, with the declared type. -/
structure ParametersTyped {T : Type} (schema : NodeSchema)
    (parameters : Std.ExtTreeMap ParameterId (EditableParameter T)) : Prop where
  ids : ∀ (id : ParameterId) (parameter : EditableParameter T), parameters[id]? = some parameter →
    parameter.id = id
  typed : ∀ (id : ParameterId) (parameter : EditableParameter T),
    parameters[id]? = some parameter →
      (schema.parameter parameter.name).map ParameterSchema.valueType =
        some parameter.value.valueType

/-- A complete node instance bound to one immutable schema. -/
structure EditableNode (T : Type) where
  schema : NodeSchema
  inputs : Std.ExtTreeMap PortId PortName
  outputs : Std.ExtTreeMap PortId PortName
  parameters : Std.ExtTreeMap ParameterId (EditableParameter T)
  inputsBound : Bound schema.inputs id inputs
  outputsBound : Bound schema.outputs id outputs
  portsApart : ∀ id : PortId, id ∈ inputs → id ∉ outputs
  parametersBound : Bound schema.parameters EditableParameter.name parameters
  parametersTyped : ParametersTyped schema parameters
  deriving DecidableEq

namespace EditableNode

variable {T : Type}

/-- Create an instance that binds every declaration exactly once. -/
def new (schema : NodeSchema) (inputs outputs : List InstancePort)
    (parameters : List (EditableParameter T)) : Except Error (EditableNode T) :=
  match hinputs : bindPorts schema.inputs inputs with
  | .error error => .error error
  | .ok inputMap =>
      match houtputs : bindPorts schema.outputs outputs with
      | .error error => .error error
      | .ok outputMap =>
          if hapart : ∃ id ∈ inputMap.keys, id ∈ outputMap then
            .error (bindingError "one instance port identity is bound in both directions")
          else
            match hparameters : bindParameters schema parameters with
            | .error error => .error error
            | .ok parameterMap => .ok {
                schema
                inputs := namesOf inputMap
                outputs := namesOf outputMap
                parameters := parameterMap
                inputsBound := (bindInstances_spec hinputs).1.ports
                outputsBound := (bindInstances_spec houtputs).1.ports
                portsApart := by
                  intro id hin hout
                  exact hapart ⟨id, by simpa [namesOf] using hin, by simpa [namesOf] using hout⟩
                parametersBound := (bindInstances_spec hparameters).1
                parametersTyped := {
                  ids := fun id parameter hparameter =>
                    ((bindInstances_spec hparameters).2 id parameter hparameter).1
                  typed := fun id parameter hparameter => not_not.1 (rejectIf_eq_ok.1
                    ((bindInstances_spec hparameters).2 id parameter hparameter).2) } }

def inputName (node : EditableNode T) (id : PortId) : Option PortName := node.inputs[id]?

def outputName (node : EditableNode T) (id : PortId) : Option PortName := node.outputs[id]?

def parameter (node : EditableNode T) (id : ParameterId) : Option (EditableParameter T) :=
  node.parameters[id]?

/-- Exchange the value of one parameter. -/
def withValue (node : EditableNode T) (id : ParameterId) (parameter : EditableParameter T)
    (hparameter : node.parameters[id]? = some parameter) (value : TypedParameterValue T)
    (htype : (node.schema.parameter parameter.name).map ParameterSchema.valueType =
      some value.valueType) : EditableNode T where
  schema := node.schema
  inputs := node.inputs
  outputs := node.outputs
  parameters := node.parameters.insert id { parameter with value }
  inputsBound := node.inputsBound
  outputsBound := node.outputsBound
  portsApart := node.portsApart
  parametersBound := by
    -- names stay where they are
    have hname : ∀ (other : ParameterId) (found : EditableParameter T),
        (node.parameters.insert id { parameter with value })[other]? = some found →
        ∃ old, node.parameters[other]? = some old ∧ old.name = found.name := by
      intro other found hfound
      rw [getElem?_insert_eq] at hfound
      split at hfound
      · rename_i heq
        cases hfound
        exact ⟨parameter, heq ▸ hparameter, rfl⟩
      · exact ⟨found, hfound, rfl⟩
    refine ⟨fun other found hfound => ?_, fun other other' found found' hfound hfound' heq => ?_,
      fun name hdeclared => ?_⟩
    · obtain ⟨old, hold, hsame⟩ := hname other found hfound
      exact hsame ▸ node.parametersBound.known other old hold
    · obtain ⟨old, hold, hsame⟩ := hname other found hfound
      obtain ⟨old', hold', hsame'⟩ := hname other' found' hfound'
      exact node.parametersBound.unique other other' old old' hold hold'
        (hsame.trans (heq.trans hsame'.symm))
    · obtain ⟨other, old, hold, hsame⟩ := node.parametersBound.complete name hdeclared
      by_cases heq : other = id
      · subst heq
        have hpar : old = parameter := Option.some.inj (hold.symm.trans hparameter)
        exact ⟨other, { parameter with value }, by simp, by rw [← hsame, hpar]⟩
      · exact ⟨other, old, by rw [getElem?_insert_eq, if_neg heq, hold], hsame⟩
  parametersTyped := by
    refine ⟨fun other found hfound => ?_, fun other found hfound => ?_⟩ <;>
      rw [getElem?_insert_eq] at hfound <;> split at hfound
    · rename_i heq
      cases hfound
      exact (node.parametersTyped.ids id parameter hparameter).trans heq.symm
    · exact node.parametersTyped.ids other found hfound
    · cases hfound
      exact htype
    · exact node.parametersTyped.typed other found hfound

def setParameterContext : ErrorContext := ⟨"superi-graph.mutation", "set_parameter"⟩

def missingParameterError : Error :=
  (Error.new .notFound .userCorrectable
    "graph parameter does not exist on the node instance").withContext setParameterContext

def parameterTypeError : Error :=
  (Error.new .invalidInput .userCorrectable
    "parameter value type does not match the node schema").withContext setParameterContext

/-- Replace the value of one parameter by another of the declared type. -/
def setParameter (node : EditableNode T) (id : ParameterId) (value : TypedParameterValue T) :
    Except Error (EditableNode T) :=
  match hparameter : node.parameters[id]? with
  | none => .error missingParameterError
  | some parameter =>
      if htype : (node.schema.parameter parameter.name).map ParameterSchema.valueType =
          some value.valueType then
        .ok (node.withValue id parameter hparameter value htype)
      else .error parameterTypeError

/-- Setting a parameter changes that value, keeps its type, and nothing else. -/
theorem setParameter_spec {node node' : EditableNode T} {id : ParameterId}
    {value : TypedParameterValue T} (h : node.setParameter id value = .ok node') :
    node'.schema = node.schema ∧ node'.inputs = node.inputs ∧ node'.outputs = node.outputs ∧
      ∃ parameter, node.parameter id = some parameter ∧
        parameter.value.valueType = value.valueType ∧
        ∀ other, node'.parameter other =
          if other = id then some { parameter with value } else node.parameter other := by
  unfold setParameter at h
  split at h
  · cases h
  · rename_i parameter hparameter
    split at h
    · rename_i htype
      cases h
      refine ⟨rfl, rfl, rfl, parameter, hparameter, ?_, fun other => getElem?_insert_eq⟩
      have := node.parametersTyped.typed id parameter hparameter
      exact Option.some.inj (this.symm.trans htype)
    · cases h

end EditableNode

end Graph
end Superi

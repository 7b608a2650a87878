import Superi.Graph.MutateLaws

/-!
# ParameterLaws — resolving parameters through their drivers

In a published state resolution meets no cycle and no missing parameter, so it fails only where a
function of the client or the arithmetic of an expression fails.  Two states that agree on all a
parameter depends on resolve it alike.
-/

namespace Superi
namespace Graph

open Core Result Keyed Digraph Relation

variable {T U F : Type} [Scalar F] [ExpressionParameterValue U F]

/-! ## Where an error can come from -/

/-- A function of the client failed: the projection of literals or a conversion. -/
inductive ClientError (F : Type) [ExpressionParameterValue U F]
    (project : ParameterAddress → TypedParameterValue T → Except Error U) (error : Error) : Prop
  | project (address : ParameterAddress) (literal : TypedParameterValue T)
      (h : project address literal = .error error)
  | toScalar (payload : U) (valueType : ValueTypeId)
      (h : ExpressionParameterValue.toExpressionScalar (F := F) payload valueType = .error error)
  | fromScalar (scalar : F) (valueType : ValueTypeId)
      (h : ExpressionParameterValue.fromExpressionScalar (U := U) valueType scalar = .error error)

/-- The arithmetic of an expression failed. -/
def ArithmeticError (error : Error) : Prop :=
  error.origin = some ⟨"superi-graph.expression", "evaluate"⟩

/-- The evaluator passes on an error of the client, or arithmetic failed. -/
def External (F : Type) [ExpressionParameterValue U F]
    (project : ParameterAddress → TypedParameterValue T → Except Error U) (error : Error) : Prop :=
  (∃ inner, ClientError F project inner ∧ error = inner.withContext evaluateContext) ∨
    ArithmeticError error

omit [Scalar F] in
theorem external_of_withErrorContext {α : Type} {x : Except Error α}
    {project : ParameterAddress → TypedParameterValue T → Except Error U} {error : Error}
    (hclient : ∀ inner, x = .error inner → ClientError F project inner)
    (h : withErrorContext x evaluateContext = .error error) : External F project error := by
  cases x with
  | ok value => cases h
  | error inner =>
      cases h
      exact .inl ⟨inner, hclient inner rfl, rfl⟩

/-! ## Expressions -/

namespace ScalarExpression

omit [Scalar F] in
theorem arithmeticError_of_applyBinary {operation : F → F → Except Error F} {stack : List F}
    {error : Error} (hoperation : ∀ left right, operation left right = .error error →
      ArithmeticError error)
    (h : applyBinary operation stack = .error error) : ArithmeticError error := by
  unfold applyBinary at h
  split at h
  · rcases bind_eq_error.1 h with hfail | ⟨value, -, hfail⟩
    · exact hoperation _ _ hfail
    · cases hfail
  · cases h
    rfl

theorem error_of_execute {resolve : ExpressionVariableName → Except Error F} {stack : List F}
    {instruction : ExpressionInstruction} {error : Error}
    (h : execute resolve stack instruction = .error error) :
    (∃ name, resolve name = .error error) ∨ ArithmeticError error := by
  match instruction, h with
  | .constant literal, h => cases h
  | .variable name, h =>
      rcases bind_eq_error.1 h with h | ⟨value, -, h⟩
      · exact .inl ⟨name, h⟩
      · rcases bind_eq_error.1 h with h | ⟨_, -, h⟩
        · obtain ⟨-, rfl⟩ := rejectIf_eq_error.1 h
          exact .inr rfl
        · cases h
  | .negate, h =>
      cases stack with
      | nil =>
          cases h
          exact .inr rfl
      | cons value rest => cases h
  | .add, h => exact .inr (arithmeticError_of_applyBinary (fun _ _ h => by cases h) h)
  | .subtract, h => exact .inr (arithmeticError_of_applyBinary (fun _ _ h => by cases h) h)
  | .multiply, h => exact .inr (arithmeticError_of_applyBinary (fun _ _ h => by cases h) h)
  | .divide, h =>
      refine .inr (arithmeticError_of_applyBinary (fun left right hdivide => ?_) h)
      rcases bind_eq_error.1 hdivide with hdivide | ⟨_, -, hdivide⟩
      · obtain ⟨-, rfl⟩ := rejectIf_eq_error.1 hdivide
        rfl
      · cases hdivide

theorem error_of_step {resolve : ExpressionVariableName → Except Error F} {stack : List F}
    {instruction : ExpressionInstruction} {error : Error}
    (h : step resolve stack instruction = .error error) :
    (∃ name, resolve name = .error error) ∨ ArithmeticError error := by
  rcases bind_eq_error.1 h with h | ⟨stack', -, h⟩
  · exact error_of_execute h
  · rcases bind_eq_error.1 h with h | ⟨_, -, h⟩
    · obtain ⟨-, rfl⟩ := rejectIf_eq_error.1 h
      exact .inr rfl
    · cases h

theorem error_of_run {resolve : ExpressionVariableName → Except Error F}
    {instructions : List ExpressionInstruction} {error : Error} :
    ∀ {stack : List F}, instructions.foldlM (step resolve) stack = .error error →
      (∃ name, resolve name = .error error) ∨ ArithmeticError error := by
  induction instructions with
  | nil => intro stack h; cases h
  | cons instruction rest ih =>
      intro stack h
      rw [List.foldlM_cons] at h
      rcases bind_eq_error.1 h with h | ⟨stack', -, h⟩
      · exact error_of_step h
      · exact ih h

/-- A program fails where a variable does or in its own arithmetic. -/
theorem error_of_evaluateWith {expression : ScalarExpression}
    {resolve : ExpressionVariableName → Except Error F} {error : Error}
    (h : expression.evaluateWith resolve = .error error) :
    (∃ name, resolve name = .error error) ∨ ArithmeticError error := by
  rcases bind_eq_error.1 h with h | ⟨stack, -, h⟩
  · exact error_of_run h
  · split at h
    · cases h
    · cases h
      exact .inr rfl

end ScalarExpression

/-- A bound program fails where a bound variable does or in its own arithmetic. -/
theorem ParameterExpression.error_of_evaluateWith {expression : ParameterExpression}
    {resolve : ExpressionVariableName → ParameterReference → Except Error F} {error : Error}
    (h : expression.evaluateWith resolve = .error error) :
    (∃ (name : ExpressionVariableName) (reference : ParameterReference),
      expression.variables'[name]? = some reference ∧ resolve name reference = .error error) ∨
      ArithmeticError error := by
  rcases ScalarExpression.error_of_evaluateWith h with ⟨name, h⟩ | h
  · rcases bind_eq_error.1 h with h | ⟨reference, hreference, h⟩
    · cases hname : expression.variables'[name]? with
      | none =>
          simp only [hname, okOr, Except.error.injEq] at h
          exact .inr (h ▸ rfl)
      | some reference => simp [hname, okOr] at h
    · rcases bind_eq_error.1 h with h | ⟨value, -, h⟩
      · exact .inl ⟨name, reference, okOr_eq_ok.1 hreference, h⟩
      · rcases bind_eq_error.1 h with h | ⟨_, -, h⟩
        · obtain ⟨-, rfl⟩ := rejectIf_eq_error.1 h
          exact .inr rfl
        · cases h
  · exact .inr h

/-! ## Resolution in a published state -/

namespace Resolution

/-- Every parameter resolved before is resolved now. -/
def Grows (memo memo' : Resolution U) : Prop :=
  ∀ address : ParameterAddress, address ∈ memo.evaluated → address ∈ memo'.evaluated

theorem Grows.refl (memo : Resolution U) : Grows memo memo := fun _ => id

theorem Grows.trans {a b c : Resolution U} (hab : Grows a b) (hbc : Grows b c) : Grows a c :=
  fun address h => hbc address (hab address h)

theorem grows_complete (memo : Resolution U) (address : ParameterAddress)
    (value : TypedParameterValue U) : Grows memo (memo.complete address value).2 :=
  fun _ h => Std.ExtTreeMap.mem_insert.2 (.inr h)

end Resolution

omit [Scalar F] in
theorem mem_dependencies_of_variable {driver : ParameterDriver} {expression : ParameterExpression}
    (hkind : driver.kind = .expression expression) {name : ExpressionVariableName}
    {reference : ParameterReference} (h : expression.variables'[name]? = some reference) :
    reference ∈ driver.dependencies := by
  simp only [ParameterDriver.dependencies, hkind, Std.ExtTreeSet.mem_toList,
    Std.ExtTreeSet.mem_ofList, List.contains_iff_mem]
  exact mem_valuesOf.2 ⟨name, h⟩

/-- A driver whose dependencies are resolved fails only outside the evaluator. -/
theorem external_of_value {driver : ParameterDriver} {memo : Resolution U} {error : Error}
    (project : ParameterAddress → TypedParameterValue T → Except Error U)
    (hresolved : ∀ dependency ∈ driver.dependencies, dependency.address ∈ memo.evaluated)
    (h : driver.value F memo = .error error) : External F project error := by
  -- no dependency is missing
  have hread : ∀ (reference : ParameterReference) (missing : Error), reference ∈ driver.dependencies →
      okOr memo.evaluated[reference.address]? missing ≠ .error error := by
    intro reference missing hmem
    obtain ⟨value, hvalue⟩ := Option.isSome_iff_exists.1
      (Std.ExtTreeMap.isSome_getElem?_iff_mem.2 (hresolved reference hmem))
    simp [hvalue, okOr]
  unfold ParameterDriver.value at h
  split at h
  · rename_i source hkind
    exact absurd h (hread source _ (by simp [ParameterDriver.dependencies, hkind]))
  · rename_i expression hkind
    rcases bind_eq_error.1 h with h | ⟨scalar, -, h⟩
    · rcases ParameterExpression.error_of_evaluateWith h with ⟨name, reference, hbound, h⟩ | h
      · rcases bind_eq_error.1 h with h | ⟨value, -, h⟩
        · exact absurd h (hread reference _ (mem_dependencies_of_variable hkind hbound))
        · exact external_of_withErrorContext (fun inner hinner => .toScalar _ _ hinner) h
      · exact .inr h
    · rcases bind_eq_error.1 h with h | ⟨payload, -, h⟩
      · exact external_of_withErrorContext (fun inner hinner => .fromScalar _ _ hinner) h
      · cases h

/-! ### The five ways through the recursion -/

section Resolve

variable {state : GraphState T}
  {project : ParameterAddress → TypedParameterValue T → Except Error U}
  {active : Finset ParameterAddress} {address : ParameterAddress} {memo : Resolution U}

/-- Resolve the dependencies of a driver one after the other. -/
def resolveAll (F : Type) [Scalar F] [ExpressionParameterValue U F] (state : GraphState T)
    (project : ParameterAddress → TypedParameterValue T → Except Error U)
    (active : Finset ParameterAddress) (dependencies : List ParameterReference)
    (memo : Resolution U) : Except Error (Resolution U) :=
  dependencies.foldlM (fun memo dependency => do
    let (_, memo) ← resolveParameter F state project active dependency.address memo
    pure memo) memo

theorem resolveParameter_memo {value : TypedParameterValue U}
    (hmemo : memo.evaluated[address]? = some value) :
    resolveParameter F state project active address memo = .ok (value, memo) := by
  unfold resolveParameter
  simp [hmemo, pure, Except.pure]

theorem resolveParameter_literal (hmemo : memo.evaluated[address]? = none)
    (hactive : address ∉ active) {parameter : EditableParameter T}
    (hparameter : state.parameter address = some parameter)
    (hdriver : state.parameterDrivers[address]? = none) :
    resolveParameter F state project active address memo = (do
      let payload ← withErrorContext (project address parameter.value) evaluateContext
      pure (memo.complete address ⟨parameter.value.valueType, payload⟩)) := by
  unfold resolveParameter
  simp only [hmemo, hactive, hparameter, dite_false]
  split
  · rfl
  · rename_i driver hsome
    rw [hdriver] at hsome
    cases hsome

theorem resolveParameter_driven (hmemo : memo.evaluated[address]? = none)
    (hactive : address ∉ active) {parameter : EditableParameter T}
    (hparameter : state.parameter address = some parameter) {driver : ParameterDriver}
    (hdriver : state.parameterDrivers[address]? = some driver) :
    resolveParameter F state project active address memo = (do
      let memo ← resolveAll F state project (insert address active) driver.dependencies memo
      let value ← driver.value F memo
      pure (memo.complete address value)) := by
  rw [resolveParameter]
  simp only [hmemo, hactive, hparameter, dite_false]
  split
  · rename_i hnone
    rw [hdriver] at hnone
    cases hnone
  · rename_i found hfound
    rw [hdriver] at hfound
    cases hfound
    rfl

/-- What resolving a parameter may return: a larger memo that has it, or an external error. -/
def Resolves (F : Type) [ExpressionParameterValue U F]
    (project : ParameterAddress → TypedParameterValue T → Except Error U)
    (address : ParameterAddress) (memo : Resolution U) :
    Except Error (TypedParameterValue U × Resolution U) → Prop
  | .ok (_, memo') => memo.Grows memo' ∧ address ∈ memo'.evaluated
  | .error error => External F project error

omit [Scalar F] in
theorem resolves_complete (memo' : Resolution U) (value : TypedParameterValue U)
    (hgrows : memo.Grows memo') :
    Resolves F project address memo (.ok (memo'.complete address value)) :=
  ⟨hgrows.trans (memo'.grows_complete address value),
    Std.ExtTreeMap.mem_insert.2 (.inl Std.ReflCmp.compare_self)⟩

/-- What resolving a list of dependencies may return. -/
def ResolvesAll (F : Type) [ExpressionParameterValue U F]
    (project : ParameterAddress → TypedParameterValue T → Except Error U)
    (dependencies : List ParameterReference) (memo : Resolution U) :
    Except Error (Resolution U) → Prop
  | .ok memo' => memo.Grows memo' ∧
      ∀ dependency ∈ dependencies, dependency.address ∈ memo'.evaluated
  | .error error => External F project error

/-- Dependencies that resolve one by one resolve as a list. -/
theorem resolveAll_resolves {dependencies : List ParameterReference}
    (hone : ∀ (memo : Resolution U), ∀ dependency ∈ dependencies, Resolves F project
      dependency.address memo (resolveParameter F state project active dependency.address memo))
    (memo : Resolution U) :
    ResolvesAll F project dependencies memo
      (resolveAll F state project active dependencies memo) := by
  induction dependencies generalizing memo with
  | nil => exact ⟨.refl memo, by simp⟩
  | cons dependency rest ih =>
      have hfirst := hone memo dependency List.mem_cons_self
      simp only [resolveAll, List.foldlM_cons]
      cases hresult : resolveParameter F state project active dependency.address memo with
      | error error =>
          rw [hresult] at hfirst
          exact hfirst
      | ok result =>
          obtain ⟨value, memo'⟩ := result
          rw [hresult] at hfirst
          obtain ⟨hgrows, hmem⟩ := hfirst
          have hrest := ih (fun memo other hother => hone memo other (List.mem_cons_of_mem _ hother))
            memo'
          change ResolvesAll F project (dependency :: rest) memo
            (resolveAll F state project active rest memo')
          cases hall : resolveAll F state project active rest memo' with
          | error error =>
              rw [hall] at hrest
              exact hrest
          | ok last =>
              rw [hall] at hrest
              refine ⟨hgrows.trans hrest.1, fun other hother => ?_⟩
              rcases List.mem_cons.1 hother with rfl | hother
              · exact hrest.1 _ hmem
              · exact hrest.2 other hother

/-- Resolution of an existing parameter.  What is being resolved around it depends on it, so it is
not among them. -/
theorem resolveParameter_resolves (h : state.WellFormed) (active : Finset ParameterAddress)
    (address : ParameterAddress) (memo : Resolution U)
    (hactive : ∀ other ∈ active, TransGen (DependsOn state.parameterDrivers) other address)
    (hexists : state.typeOf address ≠ none) :
    Resolves F project address memo
      (resolveParameter F state project active address memo) := by
  induction active, address, memo using resolveParameter.induct state with
  | case1 active address memo value hmemo =>
      rw [resolveParameter_memo hmemo]
      exact ⟨.refl memo, mem_of_getElem?_eq_some hmemo⟩
  | case2 active address memo hmemo hin =>
      exact absurd (hactive address hin) (h.driversAcyclic address)
  | case3 active address memo hmemo hnot hparameter =>
      simp [GraphState.typeOf, hparameter] at hexists
  | case4 active address memo hmemo hnot parameter hparameter hdriver =>
      rw [resolveParameter_literal hmemo hnot hparameter hdriver]
      cases hproject : withErrorContext (project address parameter.value) evaluateContext with
      | error error =>
          exact external_of_withErrorContext (fun inner hinner => .project _ _ hinner) hproject
      | ok payload => exact resolves_complete memo _ (.refl memo)
  | case5 active address memo hmemo hnot parameter hparameter driver hdriver ih =>
      rw [resolveParameter_driven hmemo hnot hparameter hdriver]
      have hdepends : ∀ dependency ∈ driver.dependencies,
          DependsOn state.parameterDrivers address dependency.address := fun dependency hmem =>
        ⟨driver, hdriver, List.mem_map_of_mem hmem⟩
      have hall : ResolvesAll F project driver.dependencies memo
          (resolveAll F state project (insert address active) driver.dependencies memo) := by
        refine resolveAll_resolves (fun memo dependency hmem => ih memo dependency ?_ ?_) memo
        · intro other hother
          rcases Finset.mem_insert.1 hother with rfl | hother
          · exact .single (hdepends dependency hmem)
          · exact (hactive other hother).tail (hdepends dependency hmem)
        · rw [(h.drivers address driver hdriver).dependencies dependency hmem]
          exact Option.some_ne_none _
      cases hresult : resolveAll F state project (insert address active) driver.dependencies
            memo with
        | error error =>
            rw [hresult] at hall
            exact hall
        | ok memo' =>
            rw [hresult] at hall
            cases hvalue : driver.value F memo' with
            | error error =>
                simp only [bind, Except.bind, hvalue]
                exact external_of_value project hall.2 hvalue
            | ok value =>
                simp only [bind, Except.bind, hvalue]
                exact resolves_complete memo' value hall.1

end Resolve

/-- Evaluation in a published state reports a missing target, or what happened outside it. -/
theorem GraphSnapshot.error_of_evaluateParameterWith {snapshot : GraphSnapshot T}
    (h : snapshot.state.WellFormed) {target : ParameterAddress}
    {project : ParameterAddress → TypedParameterValue T → Except Error U} {error : Error}
    (herror : snapshot.evaluateParameterWith F target project = .error error) :
    (snapshot.state.parameter target = none ∧ error =
      mutationError .notFound "evaluate_parameter" "requested graph parameter does not exist") ∨
      External F project error := by
  rcases bind_eq_error.1 herror with hmissing | ⟨_, hexists, hrest⟩
  · obtain ⟨hnone, rfl⟩ := rejectIf_eq_error.1 hmissing
    exact .inl ⟨hnone, rfl⟩
  · refine .inr ?_
    have hresolves : Resolves F project target ⟨∅, []⟩
        (resolveParameter F snapshot.state project ∅ target ⟨∅, []⟩) :=
      resolveParameter_resolves h ∅ target ⟨∅, []⟩ (by simp) (by simpa [GraphState.typeOf] using rejectIf_eq_ok.1 hexists)
    rcases bind_eq_error.1 hrest with hfail | ⟨result, -, hfail⟩
    · rw [hfail] at hresolves
      exact hresolves
    · cases hfail

/-! ## Every reachable graph -/

namespace EditableGraph

/-- In every state a graph can reach its collections agree, both dependency graphs are acyclic, and
neither ordering nor parameter evaluation meets a broken reference: an internal evaluation error
is one that a function of the client returned. -/
theorem reachable_invariant {graph : EditableGraph T} (h : graph.Reachable) :
    graph.state.WellFormed ∧
      graph.state.nodeOrder.Perm graph.state.dag.nodes.keys ∧
      graph.state.dag.topologicalOrder.Perm graph.state.dag.nodes.keys ∧
      (graph.state.dag.topologicalOrder.Pairwise fun first later =>
        ¬ graph.state.dag.Precedes later first) ∧
      ∀ (U F : Type) [Scalar F] [ExpressionParameterValue U F]
        (project : ParameterAddress → TypedParameterValue T → Except Error U)
        (target : ParameterAddress) (error : Error) (message : String),
        graph.snapshot.evaluateParameterWith F target project = .error error →
        error = internalEvaluationError message →
        ∃ inner, ClientError F project inner ∧ error = inner.withContext evaluateContext := by
  have hwf := h.wellFormed
  obtain ⟨-, hsorted⟩ := DirectedAcyclicGraph.topologicalOrder_sorted hwf.dag
  refine ⟨hwf, hwf.order_perm, ?_, ?_, ?_⟩
  · refine (List.perm_ext_iff_of_nodup hsorted.nodup (nodup_keys _)).2 fun id => ?_
    rw [hsorted.mem_iff, List.mem_toFinset]
  · exact hsorted.behind.imp fun hnot hprecedes =>
      hnot ((DirectedAcyclicGraph.mem_destinations_iff hwf.dag).2 hprecedes)
  · intro U F _ _ project target error message herror hinternal
    rcases GraphSnapshot.error_of_evaluateParameterWith
        (show graph.snapshot.state.WellFormed from hwf) herror with
      ⟨-, hmissing⟩ | hclient | harithmetic
    · rw [hinternal] at hmissing
      exact absurd (congrArg Error.category hmissing) (by simp [internalEvaluationError,
        mutationError, Error.new, Error.withContext])
    · exact hclient
    · rw [hinternal] at harithmetic
      exact absurd harithmetic (by simp [ArithmeticError, internalEvaluationError, Error.origin,
        Error.new, Error.withContext, evaluateContext])

/-! ### A graph with one edge and one link -/

def gainSchema : Except Error NodeSchema :=
  NodeSchema.new ⟨⟨"superi.gain"⟩, .new 1 0 0⟩ [⟨⟨"in"⟩, ⟨"frame"⟩, .optional⟩]
    [⟨⟨"out"⟩, ⟨"frame"⟩, .single⟩] [⟨⟨"gain"⟩, ⟨"scalar"⟩, true⟩]
    ⟨.currentFrame, .inputBounds, .notApplicable, .deterministic, .perFrame⟩ ∅

def gainNode (schema : NodeSchema) (gain : Int) : Except Error (EditableNode Int) :=
  EditableNode.new schema [⟨⟨1⟩, ⟨"in"⟩⟩] [⟨⟨2⟩, ⟨"out"⟩⟩] [⟨⟨1⟩, ⟨"gain"⟩, ⟨⟨"scalar"⟩, gain⟩⟩]

/-- The gain of the second node follows that of the first. -/
def gainDriver : ParameterDriver where
  valueType := ⟨"scalar"⟩
  kind := .link ⟨⟨⟨2⟩, ⟨1⟩⟩, ⟨"scalar"⟩⟩

def gainTransaction : Except Error (GraphTransaction Int) := do
  let schema ← gainSchema
  let source ← gainNode schema 3
  let sink ← gainNode schema 4
  pure ⟨0, [.add ⟨1⟩ sink 0, .add ⟨2⟩ source 0, .connect ⟨⟨1⟩, ⟨⟨2⟩, ⟨2⟩⟩, ⟨⟨1⟩, ⟨1⟩⟩⟩,
    .setParameterDriver ⟨⟨1⟩, ⟨1⟩⟩ gainDriver]⟩

def gainGraph : Except Error (EditableGraph Int) := do
  let transaction ← gainTransaction
  (EditableGraph.new ⟨1⟩).apply transaction

theorem reachable_of_gainGraph {graph : EditableGraph Int} (h : gainGraph = .ok graph) :
    graph.Reachable := by
  obtain ⟨transaction, -, hok⟩ := bind_eq_ok.1 h
  exact .apply transaction (.new ⟨1⟩) hok

theorem reachable_invariant_gain : ∃ graph, gainGraph = .ok graph ∧ graph.state.WellFormed ∧
    graph.state.dag.topologicalOrder.Perm graph.state.dag.nodes.keys := by
  obtain ⟨graph, hgraph⟩ := exists_ok_of_isSome (x := gainGraph) (by decide +kernel)
  have hinvariant := reachable_invariant (reachable_of_gainGraph hgraph)
  exact ⟨graph, hgraph, hinvariant.1, hinvariant.2.2.1⟩

end EditableGraph

end Graph
end Superi

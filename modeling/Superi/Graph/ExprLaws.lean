import Superi.Graph.ExprComplete

/-!
# ExprLaws — compilation is correct

A source compiles exactly when it is a bounded expression of the language, and the program that
comes out computes the value of its parse tree: it never finds the stack too short, and one value is
left.
-/

namespace Superi
namespace Graph

open Core Result Fueled

/-! ## Running a program -/

section

variable {F : Type} [Scalar F] (resolve : ExpressionVariableName → Except Error F)

/-- The check behind every instruction. -/
theorem step_eq {stack next : List F} {value : F} {instruction : ExpressionInstruction}
    (h : ScalarExpression.execute resolve stack instruction = .ok (value :: next)) :
    ScalarExpression.step resolve stack instruction =
      (ExpressionTree.finite value >>= fun value => pure (value :: next)) := by
  rw [ScalarExpression.step, h, ExpressionTree.finite]
  by_cases hfinite : Scalar.isFinite value = false
  · simp [bind, Except.bind, rejectIf, hfinite]
  · simp [bind, Except.bind, rejectIf, hfinite, pure, Except.pure]

theorem step_of_error {stack : List F} {e : Error} {instruction : ExpressionInstruction}
    (h : ScalarExpression.execute resolve stack instruction = .error e) :
    ScalarExpression.step resolve stack instruction = .error e := by
  rw [ScalarExpression.step, h]
  rfl

/-- An operation takes its operands from the stack. -/
theorem step_operator (operator : BinaryOperator) (left right : F) (stack : List F) :
    ScalarExpression.step resolve (right :: left :: stack) operator.instruction =
      (operator.apply left right >>= fun value => ExpressionTree.finite value >>= fun value =>
        pure (value :: stack)) := by
  have hexecute : ScalarExpression.execute resolve (right :: left :: stack) operator.instruction =
      (operator.apply left right >>= fun value => pure (value :: stack)) := by
    cases operator <;> rfl
  cases happly : operator.apply left right with
  | error e =>
      rw [happly] at hexecute
      exact step_of_error resolve hexecute
  | ok value =>
      rw [happly] at hexecute
      exact step_eq resolve hexecute

theorem step_variable (name : ExpressionVariableName) (stack : List F) :
    ScalarExpression.step resolve stack (.variable name) =
      ((ExpressionTree.reference name).evaluate resolve >>= fun value => pure (value :: stack)) := by
  rw [ExpressionTree.evaluate]
  cases hresolve : resolve name with
  | error e =>
      apply step_of_error
      rw [ScalarExpression.execute, hresolve]
      rfl
  | ok value =>
      by_cases hfinite : Scalar.isFinite value = false
      · have hexecute : ScalarExpression.execute resolve stack (.variable name) =
            .error (expressionError "evaluate"
              "expression variable resolved to a nonfinite value") := by
          rw [ScalarExpression.execute, hresolve]
          simp [bind, Except.bind, rejectIf, hfinite]
        rw [step_of_error resolve hexecute]
        simp [bind, Except.bind, rejectIf, hfinite]
      · have hexecute : ScalarExpression.execute resolve stack (.variable name) =
            .ok (value :: stack) := by
          rw [ScalarExpression.execute, hresolve]
          simp [bind, Except.bind, rejectIf, hfinite, pure, Except.pure]
        rw [step_eq resolve hexecute]
        simp [bind, Except.bind, rejectIf, hfinite]

/-- The postfix program of a tree pushes the value of the tree. -/
theorem foldlM_instructions (tree : ExpressionTree) (stack : List F) :
    tree.instructions.foldlM (ScalarExpression.step resolve) stack =
      (tree.evaluate resolve >>= fun value => pure (value :: stack)) := by
  induction tree generalizing stack with
  | number literal =>
      rw [ExpressionTree.instructions, List.foldlM_cons, ExpressionTree.evaluate]
      simp only [List.foldlM_nil, bind_pure]
      exact step_eq resolve rfl
  | reference name =>
      rw [ExpressionTree.instructions, List.foldlM_cons]
      simp only [List.foldlM_nil, bind_pure]
      exact step_variable resolve name stack
  | parenthesized inner ih => exact ih stack
  | negate operand ih =>
      rw [ExpressionTree.instructions, List.foldlM_append, ih, ExpressionTree.evaluate]
      simp only [List.foldlM_cons, List.foldlM_nil, bind_pure, bind_assoc, pure_bind]
      refine bind_congr fun value => ?_
      exact step_eq resolve rfl
  | binary operator left right ihl ihr =>
      rw [ExpressionTree.instructions, List.foldlM_append, List.foldlM_append, ihl,
        ExpressionTree.evaluate]
      simp only [List.foldlM_cons, List.foldlM_nil, bind_pure, bind_assoc, pure_bind, ihr]
      refine bind_congr fun leftValue => bind_congr fun rightValue => ?_
      exact step_operator resolve operator leftValue rightValue stack

/-- The stack is never too short in a compiled program, and one value is left at the end. -/
theorem evaluateWith_eq {expression : ScalarExpression} {tree : ExpressionTree}
    (h : expression.instructions = tree.instructions) :
    expression.evaluateWith resolve = tree.evaluate resolve := by
  rw [ScalarExpression.evaluateWith, h, foldlM_instructions]
  simp only [bind_assoc, pure_bind, bind_pure]

/-- What a tree fails with comes from a variable, or blames the input. -/
theorem evaluate_error {tree : ExpressionTree} {e : Error} (h : tree.evaluate resolve = .error e) :
    (∃ name, resolve name = .error e) ∨ e.category = .invalidInput := by
  have hfinite : ∀ {value : F}, ExpressionTree.finite value = .error e →
      e.category = .invalidInput := by
    intro value hvalue
    rcases bind_eq_error.1 hvalue with hreject | ⟨_, -, habsurd⟩
    · obtain ⟨-, rfl⟩ := rejectIf_eq_error.1 hreject
      rfl
    · cases habsurd
  induction tree with
  | number literal => exact .inr (hfinite h)
  | reference name =>
      rw [ExpressionTree.evaluate] at h
      rcases bind_eq_error.1 h with hresolve | ⟨value, -, h⟩
      · exact .inl ⟨name, hresolve⟩
      · rcases bind_eq_error.1 h with hreject | ⟨_, -, h⟩
        · obtain ⟨-, rfl⟩ := rejectIf_eq_error.1 hreject
          exact .inr rfl
        · exact .inr (hfinite h)
  | parenthesized inner ih => exact ih h
  | negate operand ih =>
      rw [ExpressionTree.evaluate] at h
      rcases bind_eq_error.1 h with h | ⟨value, -, h⟩
      · exact ih h
      · exact .inr (hfinite h)
  | binary operator left right ihl ihr =>
      rw [ExpressionTree.evaluate] at h
      rcases bind_eq_error.1 h with h | ⟨leftValue, -, h⟩
      · exact ihl h
      · rcases bind_eq_error.1 h with h | ⟨rightValue, -, h⟩
        · exact ihr h
        · rcases bind_eq_error.1 h with h | ⟨value, -, h⟩
          · cases operator with
            | divide =>
                rcases bind_eq_error.1 h with hreject | ⟨_, -, habsurd⟩
                · obtain ⟨-, rfl⟩ := rejectIf_eq_error.1 hreject
                  exact .inr rfl
                · cases habsurd
            | add => cases h
            | subtract => cases h
            | multiply => cases h
          · exact .inr (hfinite h)

end

/-! ## Compiling -/

/-- The set of the allowed variables; it is refused when one is given twice. -/
theorem allowVariables_spec (names : List ExpressionVariableName) :
    (∃ e, allowVariables names = .error e ∧ ¬ names.Nodup) ∨
      ∃ set, allowVariables names = .ok set ∧ names.Nodup ∧ ∀ name, name ∈ set ↔ name ∈ names := by
  suffices hfold : ∀ allowed : Std.ExtTreeSet ExpressionVariableName,
      let fold := names.foldlM (fun allowed name => do
        rejectIf (name ∈ allowed)
          (syntaxError "parameter expression variable is allowed more than once")
        pure (allowed.insert name)) allowed
      (∃ e, fold = .error e ∧ ¬ (names.Nodup ∧ ∀ name ∈ names, name ∉ allowed)) ∨
        ∃ set, fold = .ok set ∧ (names.Nodup ∧ ∀ name ∈ names, name ∉ allowed) ∧
          ∀ name, name ∈ set ↔ name ∈ allowed ∨ name ∈ names by
    have hempty : ∀ name ∈ names, name ∉ (∅ : Std.ExtTreeSet ExpressionVariableName) := fun _ _ =>
      Std.ExtTreeSet.not_mem_empty
    rcases hfold ∅ with ⟨e, he, hnot⟩ | ⟨set, hset, hnodup, hmem⟩
    · exact .inl ⟨e, he, fun hnodup => hnot ⟨hnodup, hempty⟩⟩
    · refine .inr ⟨set, hset, hnodup.1, fun name => ?_⟩
      rw [hmem, or_iff_right Std.ExtTreeSet.not_mem_empty]
  intro allowed
  dsimp only
  induction names generalizing allowed with
  | nil => exact .inr ⟨allowed, rfl, ⟨List.nodup_nil, nofun⟩, fun name => by simp⟩
  | cons name rest ih =>
      rw [List.foldlM_cons]
      by_cases hmem : name ∈ allowed
      · refine .inl ⟨syntaxError "parameter expression variable is allowed more than once", ?_,
          fun h => h.2 name List.mem_cons_self hmem⟩
        simp only [rejectIf, hmem, if_true, bind, Except.bind]
      · have hinsert : ∀ other, other ∈ allowed.insert name ↔ name = other ∨ other ∈ allowed := by
          intro other
          rw [Std.ExtTreeSet.mem_insert, Std.LawfulEqCmp.compare_eq_iff_eq]
        simp only [rejectIf, hmem, if_false, bind, Except.bind, pure, Except.pure]
        rcases ih (allowed.insert name) with ⟨e, he, hnot⟩ | ⟨set, hset, hnodup, hset'⟩
        · refine .inl ⟨e, he, fun h => hnot ⟨(List.nodup_cons.1 h.1).2, fun other hother => ?_⟩⟩
          rw [hinsert, not_or]
          refine ⟨?_, h.2 other (List.mem_cons_of_mem _ hother)⟩
          rintro rfl
          exact (List.nodup_cons.1 h.1).1 hother
        · refine .inr ⟨set, hset, ⟨List.nodup_cons.2 ⟨fun hname => ?_, hnodup.1⟩, ?_⟩, fun other => ?_⟩
          · exact hnodup.2 name hname ((hinsert name).2 (.inl rfl))
          · intro other hother
            rcases List.mem_cons.1 hother with rfl | hother
            · exact hmem
            · exact fun hin => hnodup.2 other hother ((hinsert other).2 (.inr hin))
          · rw [hset', hinsert, List.mem_cons]
            tauto

theorem validateExpressionSource_spec (source : String) :
    (∃ e, validateExpressionSource source = .error e ∧
        (source.toList = [] ∨ maxSourceBytes < source.utf8ByteSize)) ∨
      (validateExpressionSource source = .ok () ∧ source.utf8ByteSize ≤ maxSourceBytes) := by
  rw [validateExpressionSource]
  by_cases hempty : source.isEmpty = true
  · refine .inl ⟨expressionError "compile" "parameter expression cannot be empty",
      by simp [rejectIf, hempty, bind, Except.bind], .inl ?_⟩
    rw [String.isEmpty_iff] at hempty
    rw [hempty]
    rfl
  · by_cases hlong : maxSourceBytes < source.utf8ByteSize
    · exact .inl ⟨expressionError "compile"
        "parameter expression exceeds the supported source length",
        by simp [rejectIf, hempty, hlong, bind, Except.bind], .inr hlong⟩
    · exact .inr ⟨by simp [rejectIf, hempty, hlong, bind, Except.bind], not_lt.1 hlong⟩

section

variable {F : Type} [Scalar F] {allowed : List ExpressionVariableName}
  {set : Std.ExtTreeSet ExpressionVariableName} {source : String} {tree : ExpressionTree}

/-- Every expression of the language has a character. -/
theorem derives_ne_nil {category : Category} {text : List Char}
    (h : Derives F allowed category tree text) : text ≠ [] := by
  induction h with
  | number hnumber =>
      obtain ⟨c, others, rfl, -⟩ := Parser.number_head hnumber
      exact List.cons_ne_nil _ _
  | reference hidentifier =>
      obtain ⟨c, others, rfl, -⟩ := hidentifier.start
      exact List.cons_ne_nil _ _
  | parenthesized => exact List.cons_ne_nil _ _
  | primary _ _ ih => exact List.append_ne_nil_of_right_ne_nil _ ih
  | negate => exact List.append_ne_nil_of_right_ne_nil _ (List.cons_ne_nil _ _)
  | unary _ ih => exact ih
  | product _ _ _ _ ih => exact List.append_ne_nil_of_left_ne_nil ih _
  | term _ ih => exact ih
  | sum _ _ _ _ ih => exact List.append_ne_nil_of_left_ne_nil ih _

theorem closed_blank {additive : Bool} {blank : List Char} (h : Blank blank) :
    Parser.Closed additive blank := by
  intro operator _
  have hskip : blank.dropWhile isAsciiWhitespace = [] := by
    rw [← List.append_nil blank]
    exact dropWhile_append_stop h nofun
  rw [hskip]
  exact nofun

variable (F set source) in
/-- What the descent makes of a whole source, behind the checks. -/
def parseSource : ExceptT Error Option ScalarExpression := do
  let parser ← Parser.parseExpression F set (compileFuel source) 0 (Parser.new source)
  let parser := parser.skipWhitespace
  rejectIf (parser.rest ≠ [])
    (syntaxError "parameter expression contains an unexpected token")
  pure { source, variables' := parser.referenced, instructions := parser.instructions }

/-- The bounds on the emitted program. -/
theorem fits_new : (Parser.new source).Fits 0 tree ↔
    tree.depth ≤ maxDepth ∧ tree.size ≤ maxInstructions := by
  rw [Parser.Fits, Nat.zero_add, Parser.new, List.length_nil, Nat.zero_add]

/-- A source whose tree fits is read as that tree; another one is refused. -/
theorem parseSource_of_derives (hset : ∀ name, name ∈ allowed → name ∈ set)
    {text blank : List Char} (hsource : source.toList = text ++ blank) (hblank : Blank blank)
    (htree : Derives F allowed .expression tree text) {r : Except Error ScalarExpression}
    (h : Returns (parseSource F set source) r) :
    (¬ (tree.depth ≤ maxDepth ∧ tree.size ≤ maxInstructions) ∧ ∃ e, r = .error e) ∨
      ((tree.depth ≤ maxDepth ∧ tree.size ≤ maxInstructions) ∧
        r = .ok ⟨source, tree.refer ∅, tree.instructions⟩) := by
  have hboundary : Boundary blank := List.append_nil blank ▸ Boundary.blank hblank .nil
  have hcomplete := fun {r : Except Error Parser}
      (h : Returns (Parser.parseExpression F set (compileFuel source) 0 (Parser.new source)) r) =>
    Parser.complete hset htree hsource hboundary (Nat.zero_le _) (closed_blank hblank) h
  rw [parseSource] at h
  rcases returns_bind.1 h with ⟨e, hparse, rfl⟩ | ⟨parser, hparse, h⟩
  · rcases hcomplete hparse with ⟨hnot, -⟩ | ⟨-, fuel, hloop⟩
    · exact .inl ⟨fun hfits => hnot (fits_new.2 hfits), e, rfl⟩
    · have hends := (Parser.expressionLoop_operatorLoop F set).ends (closed_blank hblank) hloop
      cases hends
  · rcases hcomplete hparse with ⟨-, _, habsurd⟩ | ⟨hfits, fuel, hloop⟩
    · cases habsurd
    · have hends := (Parser.expressionLoop_operatorLoop F set).ends (closed_blank hblank) hloop
      cases hends
      have hskip : blank.dropWhile isAsciiWhitespace = [] := by
        rw [← List.append_nil blank]
        exact dropWhile_append_stop hblank nofun
      refine .inr ⟨fits_new.1 hfits, ?_⟩
      rw [Parser.skipWhitespace_idem] at h
      simp only [Parser.skipWhitespace, Parser.emit, hskip, rejectIf, ne_eq, not_true_eq_false,
        if_false] at h
      rcases returns_bind.1 h with ⟨e, habsurd, -⟩ | ⟨⟨⟩, -, h⟩
      · cases returns_lift.1 habsurd
      · exact returns_pure.1 h

/-- A source that is read is an expression of the language. -/
theorem derives_of_parseSource (hset : ∀ name, name ∈ set → name ∈ allowed)
    {program : ScalarExpression} (h : Returns (parseSource F set source) (.ok program)) :
    ∃ tree text blank, source.toList = text ++ blank ∧ Blank blank ∧
      Derives F allowed .expression tree text := by
  rw [parseSource] at h
  obtain ⟨parser, hparse, h⟩ := returns_bind_ok.1 h
  obtain ⟨⟨⟩, hend, -⟩ := returns_bind_ok.1 h
  have hend := rejectIf_eq_ok.1 (returns_lift.1 hend).symm
  rw [ne_eq, not_not] at hend
  obtain ⟨tree, text, blank, hrest, hblank, htree, -⟩ :=
    (Parser.sound hset _).expression (Nat.zero_le _) hparse
  obtain ⟨blank', hblank', hskip⟩ := parser.skipWhitespace_spec
  refine ⟨tree, text, blank ++ blank', ?_, Parser.blank_append hblank hblank', htree⟩
  rw [hend, List.append_nil] at hskip
  rw [← hskip]
  exact hrest

variable (F set source) in
theorem exists_parseSource : ∃ r, Returns (parseSource F set source) r := by
  have hfuel : 4 * (Parser.new source).rest.length + 4 ≤ compileFuel source := le_rfl
  rw [parseSource]
  apply exists_returns_bind ((Parser.total _).expression (Nat.zero_le _) hfuel)
  intro parser _
  apply exists_returns_bind ⟨_, returns_lift.2 rfl⟩
  exact fun _ _ => ⟨_, returns_pure.2 rfl⟩

/-- How a compilation ends. -/
theorem compile_spec (source : String) (allowed : List ExpressionVariableName) :
    ∃ r, Returns (ScalarExpression.compile F source allowed) r ∧
      ((∃ e, r = .error e) ∧
          ¬ (allowed.Nodup ∧ ∃ tree, Parses F allowed source tree ∧ Bounded source tree) ∨
        (∃ program, r = .ok program) ∧ allowed.Nodup ∧
          (∃ tree, Parses F allowed source tree) ∧
          ∀ tree, Parses F allowed source tree → Bounded source tree ∧
            r = .ok ⟨trim source, tree.refer ∅, tree.instructions⟩) := by
  have hcompile : ScalarExpression.compile F source allowed = (do
      validateExpressionSource (trim source)
      let set ← allowVariables allowed
      parseSource F set (trim source)) := rfl
  rw [hcompile]
  rcases validateExpressionSource_spec (trim source) with ⟨e, hvalidate, hbad⟩ | ⟨hvalidate, hshort⟩
  · refine ⟨.error e, returns_bind.2 (.inl ⟨e, returns_lift.2 hvalidate.symm, rfl⟩),
      .inl ⟨⟨e, rfl⟩, ?_⟩⟩
    rintro ⟨-, tree, ⟨text, blank, hsource, -, htree⟩, hbounded⟩
    rcases hbad with hempty | hlong
    · rw [hempty] at hsource
      exact derives_ne_nil htree (List.append_eq_nil_iff.1 hsource.symm).1
    · exact absurd hbounded.source (not_le.2 hlong)
  · rcases allowVariables_spec allowed with ⟨e, hallow, hnodup⟩ | ⟨set, hallow, hnodup, hset⟩
    · refine ⟨.error e, returns_bind.2 (.inr ⟨⟨⟩, returns_lift.2 hvalidate.symm, returns_bind.2
        (.inl ⟨e, returns_lift.2 hallow.symm, rfl⟩)⟩), .inl ⟨⟨e, rfl⟩, fun h => hnodup h.1⟩⟩
    · obtain ⟨r, hr⟩ := exists_parseSource F set (trim source)
      refine ⟨r, returns_bind.2 (.inr ⟨⟨⟩, returns_lift.2 hvalidate.symm, returns_bind.2
        (.inr ⟨set, returns_lift.2 hallow.symm, hr⟩)⟩), ?_⟩
      cases r with
      | error e =>
          refine .inl ⟨⟨e, rfl⟩, ?_⟩
          rintro ⟨-, tree, ⟨text, blank, hsource, hblank, htree⟩, hbounded⟩
          rcases parseSource_of_derives (fun name => (hset name).2) hsource hblank htree hr with
            ⟨hnot, -⟩ | ⟨-, habsurd⟩
          · exact hnot ⟨hbounded.depth, hbounded.instructions⟩
          · cases habsurd
      | ok program =>
          refine .inr ⟨⟨program, rfl⟩, hnodup, derives_of_parseSource (fun name => (hset name).1) hr, ?_⟩
          rintro tree ⟨text, blank, hsource, hblank, htree⟩
          rcases parseSource_of_derives (fun name => (hset name).2) hsource hblank htree hr with
            ⟨-, _, habsurd⟩ | ⟨hfits, heq⟩
          · cases habsurd
          · exact ⟨⟨hshort, hfits.2, hfits.1⟩, heq⟩

end

/-- Compilation ends, and it succeeds exactly on the bounded expressions of the language.  Then
there is a parse tree; every parse tree is within the bounds, mentions the reported variables and
has the value that the program computes, whatever the scalars are; and the program is never found
invalid. -/
theorem compile_correct (F : Type) [Scalar F] (source : String)
    (allowed : List ExpressionVariableName) :
    ∃ result, Returns (ScalarExpression.compile F source allowed) result ∧
      ((∃ program, result = .ok program) ↔
        allowed.Nodup ∧ ∃ tree, Parses F allowed source tree ∧ Bounded source tree) ∧
      ∀ program, result = .ok program → program.source = trim source ∧
        (∃ tree, Parses F allowed source tree) ∧
        (∀ tree, Parses F allowed source tree → Bounded source tree ∧
          (∀ name, name ∈ program.variables' ↔ tree.Mentions name) ∧
          ∀ (G : Type) [Scalar G] (resolve : ExpressionVariableName → Except Error G),
            program.evaluateWith resolve = tree.evaluate resolve) ∧
        ∀ (G : Type) [Scalar G] (resolve : ExpressionVariableName → Except Error G),
          program.evaluateWith resolve = .error invalidProgramError →
            ∃ name, resolve name = .error invalidProgramError := by
  obtain ⟨result, hreturns, ⟨⟨e, rfl⟩, hnot⟩ | ⟨hok, hnodup, hparses, htrees⟩⟩ :=
    compile_spec (F := F) source allowed
  · exact ⟨.error e, hreturns, ⟨nofun, fun h => absurd h hnot⟩, nofun⟩
  · refine ⟨result, hreturns, ⟨fun _ => ?_, fun _ => hok⟩, fun program hprogram => ?_⟩
    · obtain ⟨tree, htree⟩ := hparses
      exact ⟨hnodup, tree, htree, (htrees tree htree).1⟩
    · subst hprogram
      obtain ⟨tree, htree⟩ := hparses
      have hevaluates : ∀ tree, Parses F allowed source tree →
          ∀ (G : Type) [Scalar G] (resolve : ExpressionVariableName → Except Error G),
            program.evaluateWith resolve = tree.evaluate resolve := by
        intro tree htree G _ resolve
        obtain ⟨-, heq⟩ := htrees tree htree
        rw [Except.ok.inj heq]
        exact evaluateWith_eq resolve rfl
      refine ⟨?_, ⟨tree, htree⟩, fun tree htree => ⟨(htrees tree htree).1, fun name => ?_,
        hevaluates tree htree⟩, fun G _ resolve herror => ?_⟩
      · rw [Except.ok.inj (htrees tree htree).2]
      · rw [Except.ok.inj (htrees tree htree).2, ExpressionTree.mem_refer,
          or_iff_right Std.ExtTreeSet.not_mem_empty]
      · rw [hevaluates tree htree] at herror
        rcases evaluate_error resolve herror with hresolve | hcategory
        · exact hresolve
        · cases hcategory

end Graph
end Superi

import Superi.Graph.ExprGrammar
import Superi.Lib.Result

/-!
# ExprDescent — the descent reads the language

What a successful descent has read is derived by the grammar, and what the grammar derives is read
unless a bound is exceeded.  In both directions the descent emits the postfix program of the tree.
The loops over operators are one loop with two tables.
-/

namespace Superi
namespace Graph

open Core Result Fueled

/-! ## Emission -/

namespace ExpressionTree

/-- The postfix program of the tree. -/
def instructions : ExpressionTree → List ExpressionInstruction
  | .number literal => [.constant literal]
  | .reference name => [.variable name]
  | .parenthesized inner => inner.instructions
  | .negate operand => operand.instructions ++ [.negate]
  | .binary operator left right => left.instructions ++ right.instructions ++ [operator.instruction]

@[simp] theorem length_instructions (tree : ExpressionTree) :
    tree.instructions.length = tree.size := by
  induction tree with
  | number => rfl
  | reference => rfl
  | parenthesized _ ih => exact ih
  | negate _ ih => rw [instructions, List.length_append, ih]; rfl
  | binary _ _ _ ihl ihr => rw [instructions, List.length_append, List.length_append, ihl, ihr]; rfl

/-- Add the variables of the tree to a set. -/
def refer (referenced : Std.ExtTreeSet ExpressionVariableName) :
    ExpressionTree → Std.ExtTreeSet ExpressionVariableName
  | .number _ => referenced
  | .reference name => referenced.insert name
  | .parenthesized inner => inner.refer referenced
  | .negate operand => operand.refer referenced
  | .binary _ left right => right.refer (left.refer referenced)

theorem mem_refer {tree : ExpressionTree} {referenced : Std.ExtTreeSet ExpressionVariableName}
    {name : ExpressionVariableName} :
    name ∈ tree.refer referenced ↔ name ∈ referenced ∨ tree.Mentions name := by
  induction tree generalizing referenced with
  | number => simp [refer, Mentions]
  | reference other =>
      rw [refer, Mentions, Std.ExtTreeSet.mem_insert, Std.LawfulEqCmp.compare_eq_iff_eq, or_comm]
  | parenthesized _ ih => exact ih
  | negate _ ih => exact ih
  | binary _ _ _ ihl ihr => rw [refer, ihr, ihl, Mentions, or_assoc]

end ExpressionTree

namespace Parser

/-- The parser after it has read `tree`, with `rest` before it. -/
def emit (parser : Parser) (tree : ExpressionTree) (rest : List Char) : Parser :=
  ⟨rest, parser.instructions ++ tree.instructions, tree.refer parser.referenced⟩

/-- The tree stays within the bounds from here on. -/
def Fits (depth : Nat) (parser : Parser) (tree : ExpressionTree) : Prop :=
  depth + tree.depth ≤ maxDepth ∧ parser.instructions.length + tree.size ≤ maxInstructions

/-! ## Primitive steps -/

theorem skipWhitespace_spec (parser : Parser) :
    ∃ blank, Blank blank ∧ parser.rest = blank ++ parser.skipWhitespace.rest :=
  ⟨parser.rest.takeWhile isAsciiWhitespace, fun _ hc => List.mem_takeWhile_imp hc,
    List.takeWhile_append_dropWhile.symm⟩

theorem skipWhitespace_eq {parser : Parser} {blank text : List Char} (hblank : Blank blank)
    (htext : ∀ c ∈ text.head?, isAsciiWhitespace c = false) (hrest : parser.rest = blank ++ text) :
    parser.skipWhitespace = { parser with rest := text } := by
  rw [skipWhitespace, hrest, dropWhile_append_stop hblank htext]

theorem skipWhitespace_idem (parser : Parser) :
    parser.skipWhitespace.skipWhitespace = parser.skipWhitespace := by
  simp only [skipWhitespace, List.dropWhile_idempotent]

theorem push_eq_ok {parser parser' : Parser} {instruction : ExpressionInstruction} :
    parser.push instruction = .ok parser' ↔ parser.instructions.length < maxInstructions ∧
      parser' = { parser with instructions := parser.instructions ++ [instruction] } := by
  rw [push, bind_eq_ok]
  simp only [rejectIf_eq_ok, not_le, pure_eq_ok, exists_const]
  rw [eq_comm (a := parser')]

theorem exists_push_error {parser : Parser} {instruction : ExpressionInstruction}
    (h : maxInstructions ≤ parser.instructions.length) :
    ∃ e, parser.push instruction = .error e := by
  rw [push, rejectIf, if_pos h]
  exact ⟨_, rfl⟩

theorem checkDepth_eq_ok {depth : Nat} {u : Unit} : checkDepth depth = .ok u ↔ depth < maxDepth := by
  rw [checkDepth, rejectIf_eq_ok, not_le]

/-! ## Loops -/

/-- The category that a loop over operators builds. -/
def chain (additive : Bool) : Category :=
  if additive then .expression else .term

/-- The category of the operands of a loop. -/
def operand (additive : Bool) : Category :=
  if additive then .term else .unary

abbrev Descent := Nat → Nat → Parser → ExceptT Error Option Parser

/-- A loop over the operators of one table, between operands of one descent. -/
structure OperatorLoop (additive : Bool) (read loop : Descent) : Prop where
  exhausted : ∀ depth parser, loop 0 depth parser = ExceptT.mk none
  operator : ∀ (operator : BinaryOperator) (fuel depth : Nat) (parser : Parser) (rest : List Char),
    operator.isAdditive = additive → parser.skipWhitespace.rest = operator.symbol :: rest →
      loop (fuel + 1) depth parser = (do
        let next ← read fuel depth { parser with rest }
        let next ← next.push operator.instruction
        loop fuel depth next)
  stop : ∀ (fuel depth : Nat) (parser : Parser),
    (∀ operator : BinaryOperator, operator.isAdditive = additive →
      parser.skipWhitespace.rest.head? ≠ some operator.symbol) →
    loop (fuel + 1) depth parser = pure parser.skipWhitespace

section

variable (F : Type) [Scalar F] (set : Std.ExtTreeSet ExpressionVariableName)

theorem expressionLoop_operatorLoop :
    OperatorLoop true (parseTerm F set) (expressionLoop F set) where
  exhausted _ _ := by rw [expressionLoop]
  operator := by
    intro operator fuel depth parser rest hadditive hrest
    rw [expressionLoop]
    cases operator with
    | add => simp only [hrest, BinaryOperator.symbol]; rfl
    | subtract => simp only [hrest, BinaryOperator.symbol]; rfl
    | multiply => cases hadditive
    | divide => cases hadditive
  stop := by
    intro fuel depth parser hstop
    rw [expressionLoop]
    split
    · rename_i hrest
      exact absurd (congrArg List.head? hrest) (hstop .add rfl)
    · rename_i hrest
      exact absurd (congrArg List.head? hrest) (hstop .subtract rfl)
    · rfl

theorem termLoop_operatorLoop : OperatorLoop false (parseUnary F set) (termLoop F set) where
  exhausted _ _ := by rw [termLoop]
  operator := by
    intro operator fuel depth parser rest hadditive hrest
    rw [termLoop]
    cases operator with
    | add => cases hadditive
    | subtract => cases hadditive
    | multiply => simp only [hrest, BinaryOperator.symbol]; rfl
    | divide => simp only [hrest, BinaryOperator.symbol]; rfl
  stop := by
    intro fuel depth parser hstop
    rw [termLoop]
    split
    · rename_i hrest
      exact absurd (congrArg List.head? hrest) (hstop .multiply rfl)
    · rename_i hrest
      exact absurd (congrArg List.head? hrest) (hstop .divide rfl)
    · rfl

end

/-! ## Soundness -/

section

variable {F : Type} [Scalar F] {allowed : List ExpressionVariableName}
  {set : Std.ExtTreeSet ExpressionVariableName}

variable (F allowed) in
/-- The parser has read a tree of the category, perhaps with whitespace behind it, within the
bounds. -/
def Consumed (category : Category) (depth : Nat) (parser parser' : Parser) : Prop :=
  ∃ tree text blank, parser.rest = text ++ (blank ++ parser'.rest) ∧ Blank blank ∧
    Derives F allowed category tree text ∧ parser' = parser.emit tree parser'.rest ∧
    parser.Fits depth tree

theorem Consumed.length_le {category : Category} {depth : Nat} {parser parser' : Parser}
    (h : Consumed F allowed category depth parser parser') :
    parser'.rest.length ≤ parser.rest.length := by
  obtain ⟨tree, text, blank, hrest, -⟩ := h
  rw [hrest, List.length_append, List.length_append]
  omega

theorem Consumed.mono {category category' : Category} {depth : Nat} {parser parser' : Parser}
    (h : Consumed F allowed category depth parser parser')
    (hmono : ∀ {tree text}, Derives F allowed category tree text →
      Derives F allowed category' tree text) :
    Consumed F allowed category' depth parser parser' := by
  obtain ⟨tree, text, blank, hrest, hblank, htree, hemit⟩ := h
  exact ⟨tree, text, blank, hrest, hblank, hmono htree, hemit⟩

theorem derives_join {additive : Bool} {operator : BinaryOperator} {left right : ExpressionTree}
    {text blank text' : List Char} (hoperator : operator.isAdditive = additive)
    (hleft : Derives F allowed (Parser.chain additive) left text) (hblank : Blank blank)
    (hright : Derives F allowed (operand additive) right text') :
    Derives F allowed (Parser.chain additive) (.binary operator left right)
      (text ++ (blank ++ operator.symbol :: text')) := by
  cases additive with
  | true => exact .sum hoperator hleft hblank hright
  | false => exact .product hoperator hleft hblank hright

theorem blank_append {blank blank' : List Char} (h : Blank blank) (h' : Blank blank') :
    Blank (blank ++ blank') := by
  intro c hc
  rcases List.mem_append.1 hc with hc | hc
  · exact h c hc
  · exact h' c hc

/-- An operation joins what was read before with the operand behind the operator. -/
theorem Consumed.join {additive : Bool} {operator : BinaryOperator} {depth : Nat}
    {parser parser₁ parser₂ parser₃ : Parser} {rest : List Char}
    (h : Consumed F allowed (chain additive) depth parser parser₁)
    (hoperator : operator.isAdditive = additive)
    (hrest : parser₁.skipWhitespace.rest = operator.symbol :: rest)
    (hread : Consumed F allowed (operand additive) depth { parser₁ with rest } parser₂)
    (hpush : parser₂.push operator.instruction = .ok parser₃) :
    Consumed F allowed (chain additive) depth parser parser₃ := by
  obtain ⟨left, text, blank, htext, hblank, hleft, hemit, hfits⟩ := h
  obtain ⟨right, text', blank', htext', hblank', hright, hemit', hfits'⟩ := hread
  obtain ⟨blank'', hblank'', hskip⟩ := parser₁.skipWhitespace_spec
  obtain ⟨hroom, rfl⟩ := push_eq_ok.1 hpush
  refine ⟨.binary operator left right, text ++ ((blank ++ blank'') ++ operator.symbol :: text'),
    blank', ?_, hblank', derives_join hoperator hleft (blank_append hblank hblank'') hright, ?_, ?_, ?_⟩
  · rw [htext, hskip, hrest]
    simp only [List.append_assoc, List.cons_append] at htext' ⊢
    rw [htext']
  · rw [hemit', hemit]
    simp only [emit, ExpressionTree.instructions, ExpressionTree.refer, List.append_assoc]
  · exact Nat.add_max_add_left .. ▸ max_le hfits.1 hfits'.1
  · rw [hemit', hemit] at hroom
    simp only [emit, List.length_append, ExpressionTree.length_instructions] at hroom
    simp only [ExpressionTree.size]
    omega

/-- The loop reads operands as long as there are operators. -/
theorem OperatorLoop.sound {additive : Bool} {read loop : Descent}
    (hloop : OperatorLoop additive read loop) {fuel depth : Nat}
    (hread : ∀ smaller < fuel, ∀ parser parser', Returns (read smaller depth parser) (.ok parser') →
      Consumed F allowed (operand additive) depth parser parser')
    {parser parser₁ parser' : Parser} (h : Consumed F allowed (chain additive) depth parser parser₁)
    (hreturns : Returns (loop fuel depth parser₁) (.ok parser')) :
    Consumed F allowed (chain additive) depth parser parser' := by
  induction fuel generalizing parser₁ with
  | zero =>
      rw [hloop.exhausted] at hreturns
      exact absurd hreturns not_returns_none
  | succ fuel ih =>
      by_cases hstop : ∀ operator : BinaryOperator, operator.isAdditive = additive →
          parser₁.skipWhitespace.rest.head? ≠ some operator.symbol
      · rw [hloop.stop fuel depth parser₁ hstop, returns_pure] at hreturns
        cases hreturns
        obtain ⟨tree, text, blank, htext, hblank, htree, hemit, hfits⟩ := h
        obtain ⟨blank', hblank', hskip⟩ := parser₁.skipWhitespace_spec
        refine ⟨tree, text, blank ++ blank', ?_, blank_append hblank hblank', htree, ?_, hfits⟩
        · rw [htext, hskip, List.append_assoc]
        · rw [skipWhitespace, hemit]
          rfl
      · push Not at hstop
        obtain ⟨operator, hadditive, hhead⟩ := hstop
        obtain ⟨rest, hrest⟩ := List.head?_eq_some_iff.1 hhead
        rw [hloop.operator operator fuel depth parser₁ rest hadditive hrest, returns_bind_ok]
          at hreturns
        obtain ⟨parser₂, hsecond, hreturns⟩ := hreturns
        obtain ⟨parser₃, hpush, hreturns⟩ := returns_bind_ok.1 hreturns
        exact ih (fun smaller hlt => hread smaller (hlt.trans (Nat.lt_succ_self fuel)))
          (h.join hadditive hrest (hread fuel (Nat.lt_succ_self fuel) _ _ hsecond)
            (returns_lift.1 hpush).symm) hreturns

/-- Whitespace in front belongs to the token behind it. -/
theorem skipWhitespace_of_cons {parser : Parser} {c : Char} {rest : List Char}
    (h : parser.skipWhitespace.rest = c :: rest) :
    ∃ blank, Blank blank ∧ parser.rest = blank ++ c :: rest := by
  obtain ⟨blank, hblank, hskip⟩ := parser.skipWhitespace_spec
  exact ⟨blank, hblank, h ▸ hskip⟩

/-- What one primary has read, whitespace in front set aside. -/
theorem parseNumber_sound {parser parser' : Parser}
    (h : parser.parseNumber F = .ok parser') :
    ∃ tree text, parser.rest = text ++ parser'.rest ∧ Derives F allowed .primary tree text ∧
      parser' = parser.emit tree parser'.rest ∧ tree.depth = 0 ∧
      parser.instructions.length + tree.size ≤ maxInstructions := by
  rw [parseNumber] at h
  obtain ⟨⟨literal, rest⟩, hscan, h⟩ := bind_eq_ok.1 h
  obtain ⟨⟨⟩, hfinite, h⟩ := bind_eq_ok.1 h
  obtain ⟨hroom, rfl⟩ := push_eq_ok.1 h
  obtain ⟨htext, hnumber⟩ := scanNumber_sound hscan
  rw [rejectIf_eq_ok, Bool.not_eq_false] at hfinite
  exact ⟨.number (String.ofList literal), literal, htext, .number hnumber hfinite, rfl, rfl, hroom⟩

theorem parseVariable_sound (hset : ∀ name, name ∈ set → name ∈ allowed) {parser parser' : Parser}
    (h : parser.parseVariable set = .ok parser') :
    ∃ tree text, parser.rest = text ++ parser'.rest ∧ Derives F allowed .primary tree text ∧
      parser' = parser.emit tree parser'.rest ∧ tree.depth = 0 ∧
      parser.instructions.length + tree.size ≤ maxInstructions := by
  rw [parseVariable] at h
  obtain ⟨name, hname, h⟩ := bind_eq_ok.1 h
  obtain ⟨⟨⟩, hmem, h⟩ := bind_eq_ok.1 h
  obtain ⟨hroom, rfl⟩ := push_eq_ok.1 h
  obtain ⟨hidentifier, rfl⟩ := newVariableName_eq_ok.1 hname
  rw [rejectIf_eq_ok, not_not] at hmem
  refine ⟨_, _, ?_, .reference hidentifier (hset _ hmem), rfl, rfl, hroom⟩
  cases hrest : parser.rest with
  | nil =>
      rw [hrest] at hidentifier
      obtain ⟨first, others, habsurd, -⟩ := hidentifier.start
      cases habsurd
  | cons first others =>
      exact congrArg (List.cons first) List.takeWhile_append_dropWhile.symm

variable (F set allowed) in
/-- Every part of the descent reads its category. -/
structure Sound (fuel : Nat) : Prop where
  expression {depth : Nat} {parser parser' : Parser} (hdepth : depth ≤ maxDepth) :
    Returns (parseExpression F set fuel depth parser) (.ok parser') →
      Consumed F allowed .expression depth parser parser'
  term {depth : Nat} {parser parser' : Parser} (hdepth : depth ≤ maxDepth) :
    Returns (parseTerm F set fuel depth parser) (.ok parser') →
      Consumed F allowed .term depth parser parser'
  unary {depth : Nat} {parser parser' : Parser} (hdepth : depth ≤ maxDepth) :
    Returns (parseUnary F set fuel depth parser) (.ok parser') →
      Consumed F allowed .unary depth parser parser'
  primary {depth : Nat} {parser parser' : Parser} (hdepth : depth ≤ maxDepth) :
    Returns (parsePrimary F set fuel depth parser) (.ok parser') →
      Consumed F allowed .unary depth parser parser'

section

variable {fuel depth : Nat} {parser parser' : Parser}

/-- A sign and what it applies to may have whitespace in front. -/
theorem derives_unary_blank {tree : ExpressionTree} {blank text : List Char} (hblank : Blank blank)
    (h : Derives F allowed .unary tree text) : Derives F allowed .unary tree (blank ++ text) := by
  cases h with
  | primary hblank' htree =>
      rw [← List.append_assoc]
      exact .primary (blank_append hblank hblank') htree
  | negate hblank' hoperand =>
      rw [← List.append_assoc]
      exact .negate (blank_append hblank hblank') hoperand

theorem Consumed.of_skip (h : Consumed F allowed .unary depth parser.skipWhitespace parser') :
    Consumed F allowed .unary depth parser parser' := by
  obtain ⟨tree, text, blank, htext, hblank, htree, hemit, hfits⟩ := h
  obtain ⟨blank', hblank', hskip⟩ := parser.skipWhitespace_spec
  refine ⟨tree, blank' ++ text, blank, ?_, hblank, derives_unary_blank hblank' htree, hemit, hfits⟩
  rw [hskip, htext, List.append_assoc]

/-- A primary without whitespace behind it. -/
theorem Consumed.of_primary (hdepth : depth ≤ maxDepth)
    (h : ∃ tree text, parser.rest = text ++ parser'.rest ∧ Derives F allowed .primary tree text ∧
      parser' = parser.emit tree parser'.rest ∧ tree.depth = 0 ∧
      parser.instructions.length + tree.size ≤ maxInstructions) :
    Consumed F allowed .unary depth parser parser' := by
  obtain ⟨tree, text, htext, htree, hemit, hflat, hsize⟩ := h
  refine ⟨tree, [] ++ text, [], htext, nofun, .primary nofun htree, hemit, ?_, hsize⟩
  rw [hflat]
  exact hdepth

theorem parseUnary_sound (ih : Sound F allowed set fuel) (hdepth : depth ≤ maxDepth)
    (h : Returns (parseUnary F set (fuel + 1) depth parser) (.ok parser')) :
    Consumed F allowed .unary depth parser parser' := by
  rw [parseUnary] at h
  split at h
  · -- a sign in front of another unary
    rename_i rest hrest
    obtain ⟨blank, hblank, htext⟩ := skipWhitespace_of_cons hrest
    obtain ⟨⟨⟩, hcheck, h⟩ := returns_bind_ok.1 h
    have hdeeper : depth < maxDepth := checkDepth_eq_ok.1 (returns_lift.1 hcheck).symm
    obtain ⟨parser₁, hoperand, hpush⟩ := returns_bind_ok.1 h
    obtain ⟨tree, text, blank', htext', hblank', htree, hemit, hfits⟩ := ih.unary hdeeper hoperand
    obtain ⟨hroom, rfl⟩ := push_eq_ok.1 (returns_lift.1 hpush).symm
    refine ⟨.negate tree, blank ++ '-' :: text, blank', ?_, hblank', .negate hblank htree, ?_, ?_, ?_⟩
    · rw [htext, List.append_assoc, List.cons_append]
      exact congrArg (fun rest => blank ++ '-' :: rest) htext'
    · rw [hemit]
      simp only [emit, skipWhitespace, ExpressionTree.instructions, ExpressionTree.refer,
        List.append_assoc]
    · have hinner := hfits.1
      rw [ExpressionTree.depth]
      omega
    · rw [hemit] at hroom
      simp only [emit, skipWhitespace, List.length_append, ExpressionTree.length_instructions] at hroom
      rw [ExpressionTree.size]
      omega
  · exact (ih.primary hdepth h).of_skip

theorem parsePrimary_sound (hset : ∀ name, name ∈ set → name ∈ allowed)
    (ih : Sound F allowed set fuel) (hdepth : depth ≤ maxDepth)
    (h : Returns (parsePrimary F set (fuel + 1) depth parser) (.ok parser')) :
    Consumed F allowed .unary depth parser parser' := by
  rw [parsePrimary] at h
  split at h
  · rename_i rest hrest
    obtain ⟨blank, hblank, htext⟩ := skipWhitespace_of_cons hrest
    obtain ⟨⟨⟩, hcheck, h⟩ := returns_bind_ok.1 h
    have hdeeper : depth < maxDepth := checkDepth_eq_ok.1 (returns_lift.1 hcheck).symm
    obtain ⟨parser₁, hinner, h⟩ := returns_bind_ok.1 h
    obtain ⟨tree, text, blank', htext', hblank', htree, hemit, hfits⟩ :=
      ih.expression hdeeper hinner
    obtain ⟨blank'', hblank'', hskip⟩ := parser₁.skipWhitespace_spec
    dsimp only at h
    split at h
    · -- the parenthesis is closed
      rename_i rest' hclose
      rw [returns_pure, Except.ok.injEq] at h
      subst h
      refine ⟨.parenthesized tree, blank ++ '(' :: (text ++ (blank' ++ blank'') ++ [')']), [], ?_,
        fun _ hmem => absurd hmem List.not_mem_nil,
        .primary hblank (.parenthesized htree (blank_append hblank' hblank'')), ?_, ?_, hfits.2⟩
      · rw [htext, List.nil_append, List.append_assoc, List.cons_append]
        refine congrArg (fun rest => blank ++ '(' :: rest) (htext'.trans ?_)
        rw [hskip, hclose]
        simp only [List.append_assoc, List.singleton_append]
      · rw [skipWhitespace, hemit]
        rfl
      · have hinner := hfits.1
        rw [ExpressionTree.depth]
        omega
    · cases returns_throw.1 h
  · split at h
    · exact (Consumed.of_primary hdepth (parseNumber_sound (returns_lift.1 h).symm)).of_skip
    · split at h
      · exact (Consumed.of_primary hdepth
          (parseVariable_sound hset (returns_lift.1 h).symm)).of_skip
      · cases returns_throw.1 h
  · cases returns_throw.1 h

end

/-- The descent reads the language. -/
theorem sound (hset : ∀ name, name ∈ set → name ∈ allowed) (fuel : Nat) :
    Sound F allowed set fuel := by
  induction fuel using Nat.strong_induction_on with
  | _ fuel ih =>
      cases fuel with
      | zero =>
          constructor <;> intro depth parser parser' hdepth h
          · rw [parseExpression] at h
            exact absurd h not_returns_none
          · rw [parseTerm] at h
            exact absurd h not_returns_none
          · rw [parseUnary] at h
            exact absurd h not_returns_none
          · rw [parsePrimary] at h
            exact absurd h not_returns_none
      | succ fuel =>
          have hsmaller : ∀ smaller < fuel, Sound F allowed set smaller := fun smaller hlt =>
            ih smaller (hlt.trans (Nat.lt_succ_self fuel))
          have hfuel := ih fuel (Nat.lt_succ_self fuel)
          constructor <;> intro depth parser parser' hdepth h
          · rw [parseExpression] at h
            obtain ⟨parser₁, hterm, hloop⟩ := returns_bind_ok.1 h
            exact (expressionLoop_operatorLoop F set).sound
              (fun smaller hlt _ _ => (hsmaller smaller hlt).term hdepth)
              ((hfuel.term hdepth hterm).mono .term) hloop
          · rw [parseTerm] at h
            obtain ⟨parser₁, hunary, hloop⟩ := returns_bind_ok.1 h
            exact (termLoop_operatorLoop F set).sound
              (fun smaller hlt _ _ => (hsmaller smaller hlt).unary hdepth)
              ((hfuel.unary hdepth hunary).mono .unary) hloop
          · exact parseUnary_sound hfuel hdepth h
          · exact parsePrimary_sound hset hfuel hdepth h

/-! ## Termination -/

/-- Each call of a loop leaves less to read than the one before. -/
theorem OperatorLoop.total {additive : Bool} {read loop : Descent}
    (hloop : OperatorLoop additive read loop) {fuel depth : Nat}
    (hread : ∀ smaller < fuel, ∀ parser : Parser, 4 * parser.rest.length + 3 ≤ smaller →
      ∃ r, Returns (read smaller depth parser) r)
    (hshorter : ∀ smaller < fuel, ∀ parser parser', Returns (read smaller depth parser) (.ok parser') →
      parser'.rest.length ≤ parser.rest.length)
    {parser : Parser} (hfuel : 4 * parser.rest.length + 1 ≤ fuel) :
    ∃ r, Returns (loop fuel depth parser) r := by
  induction fuel generalizing parser with
  | zero => exact absurd hfuel (Nat.not_succ_le_zero _)
  | succ fuel ih =>
      by_cases hstop : ∀ operator : BinaryOperator, operator.isAdditive = additive →
          parser.skipWhitespace.rest.head? ≠ some operator.symbol
      · rw [hloop.stop fuel depth parser hstop]
        exact ⟨_, returns_pure.2 rfl⟩
      · push Not at hstop
        obtain ⟨operator, hadditive, hhead⟩ := hstop
        obtain ⟨rest, hrest⟩ := List.head?_eq_some_iff.1 hhead
        obtain ⟨blank, hskip⟩ := skipWhitespace_of_cons hrest
        have hlength : rest.length < parser.rest.length := by
          rw [hskip.2, List.length_append, List.length_cons]
          omega
        rw [hloop.operator operator fuel depth parser rest hadditive hrest]
        have hlt := Nat.lt_succ_self fuel
        apply exists_returns_bind
        · exact hread fuel hlt _ (by dsimp only; omega)
        · intro parser₁ hfirst
          have hle := hshorter fuel hlt _ _ hfirst
          apply exists_returns_bind ⟨_, returns_lift.2 rfl⟩
          intro parser₂ hpush
          obtain ⟨-, rfl⟩ := push_eq_ok.1 (returns_lift.1 hpush).symm
          apply ih (fun smaller h => hread smaller (h.trans hlt))
            (fun smaller h => hshorter smaller (h.trans hlt))
          dsimp only at hle ⊢
          omega

variable (F set) in
/-- The fuel that every part of the descent needs. -/
structure Total (fuel : Nat) : Prop where
  expression {depth : Nat} {parser : Parser} (hdepth : depth ≤ maxDepth)
    (hfuel : 4 * parser.rest.length + 4 ≤ fuel) :
    ∃ r, Returns (parseExpression F set fuel depth parser) r
  term {depth : Nat} {parser : Parser} (hdepth : depth ≤ maxDepth)
    (hfuel : 4 * parser.rest.length + 3 ≤ fuel) : ∃ r, Returns (parseTerm F set fuel depth parser) r
  unary {depth : Nat} {parser : Parser} (hdepth : depth ≤ maxDepth)
    (hfuel : 4 * parser.rest.length + 2 ≤ fuel) : ∃ r, Returns (parseUnary F set fuel depth parser) r
  primary {depth : Nat} {parser : Parser} (hdepth : depth ≤ maxDepth)
    (hfuel : 4 * parser.rest.length + 1 ≤ fuel) : ∃ r, Returns (parsePrimary F set fuel depth parser) r

theorem skipWhitespace_length_le (parser : Parser) :
    parser.skipWhitespace.rest.length ≤ parser.rest.length :=
  List.length_dropWhile_le _ _

theorem parseUnary_total {fuel depth : Nat} {parser : Parser} (ih : Total F set fuel)
    (hdepth : depth ≤ maxDepth) (hfuel : 4 * parser.rest.length + 2 ≤ fuel + 1) :
    ∃ r, Returns (parseUnary F set (fuel + 1) depth parser) r := by
  have hskip := parser.skipWhitespace_length_le
  rw [parseUnary]
  split
  · rename_i rest hrest
    rw [hrest, List.length_cons] at hskip
    apply exists_returns_bind ⟨_, returns_lift.2 rfl⟩
    rintro ⟨⟩ hcheck
    have hdeeper : depth < maxDepth := checkDepth_eq_ok.1 (returns_lift.1 hcheck).symm
    apply exists_returns_bind (ih.unary hdeeper (by dsimp only; omega))
    exact fun _ _ => ⟨_, returns_lift.2 rfl⟩
  · exact ih.primary hdepth (by omega)

theorem parsePrimary_total {fuel depth : Nat} {parser : Parser} (ih : Total F set fuel)
    (hfuel : 4 * parser.rest.length + 1 ≤ fuel + 1) :
    ∃ r, Returns (parsePrimary F set (fuel + 1) depth parser) r := by
  have hskip := parser.skipWhitespace_length_le
  rw [parsePrimary]
  split
  · rename_i rest hrest
    rw [hrest, List.length_cons] at hskip
    apply exists_returns_bind ⟨_, returns_lift.2 rfl⟩
    rintro ⟨⟩ hcheck
    have hdeeper : depth < maxDepth := checkDepth_eq_ok.1 (returns_lift.1 hcheck).symm
    apply exists_returns_bind (ih.expression hdeeper (by dsimp only; omega))
    intro parser₁ _
    dsimp only
    split
    · exact ⟨_, returns_pure.2 rfl⟩
    · exact ⟨_, returns_throw.2 rfl⟩
  · split
    · exact ⟨_, returns_lift.2 rfl⟩
    · split
      · exact ⟨_, returns_lift.2 rfl⟩
      · exact ⟨_, returns_throw.2 rfl⟩
  · exact ⟨_, returns_throw.2 rfl⟩

/-- The descent ends: four calls for each character that is left suffice. -/
theorem total (fuel : Nat) : Total F set fuel := by
  induction fuel using Nat.strong_induction_on with
  | _ fuel ih =>
      cases fuel with
      | zero =>
          constructor <;> intro depth parser hdepth hfuel <;> exact absurd hfuel (Nat.not_succ_le_zero _)
      | succ fuel =>
          have hsmaller : ∀ smaller < fuel, Total F set smaller := fun smaller hlt =>
            ih smaller (hlt.trans (Nat.lt_succ_self fuel))
          have hfuel := ih fuel (Nat.lt_succ_self fuel)
          have hsound : ∀ smaller, Sound F set.toList set smaller :=
            sound fun _ => Std.ExtTreeSet.mem_toList.2
          constructor <;> intro depth parser hdepth hlength
          · rw [parseExpression]
            apply exists_returns_bind (hfuel.term hdepth (by omega))
            intro parser₁ hterm
            have hle := ((hsound fuel).term hdepth hterm).length_le
            exact (expressionLoop_operatorLoop F set).total
              (fun smaller hlt _ => (hsmaller smaller hlt).term hdepth)
              (fun smaller _ _ _ h => ((hsound smaller).term hdepth h).length_le) (by omega)
          · rw [parseTerm]
            apply exists_returns_bind (hfuel.unary hdepth (by omega))
            intro parser₁ hunary
            have hle := ((hsound fuel).unary hdepth hunary).length_le
            exact (termLoop_operatorLoop F set).total
              (fun smaller hlt _ hlength => (hsmaller smaller hlt).unary hdepth (by omega))
              (fun smaller _ _ _ h => ((hsound smaller).unary hdepth h).length_le) (by omega)
          · exact parseUnary_total hfuel hdepth hlength
          · exact parsePrimary_total hfuel hlength

end

end Parser

end Graph
end Superi

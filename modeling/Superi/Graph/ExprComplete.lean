import Superi.Graph.ExprDescent

/-!
# ExprComplete — the descent misses nothing

A derivation steers the descent: in front of a text that it derives, the descent emits the tree and
stands behind the text, or it fails because a bound is exceeded.  A sum or a product is left to the
loop that reads further operators, so the statement about those says how the loop continues.
-/

namespace Superi
namespace Graph
namespace Parser

open Core Result Fueled

variable {F : Type} [Scalar F] {allowed : List ExpressionVariableName}
  {set : Std.ExtTreeSet ExpressionVariableName} {fuel depth : Nat} {parser : Parser}

/-- The bounds decide between an error and what comes next. -/
def Outcome (depth : Nat) (parser : Parser) (tree : ExpressionTree) (r : Except Error Parser)
    (next : Prop) : Prop :=
  (¬ parser.Fits depth tree ∧ ∃ e, r = .error e) ∨ (parser.Fits depth tree ∧ next)

/-- No operator of the table follows, so a loop over it ends here. -/
def Closed (additive : Bool) (text : List Char) : Prop :=
  ∀ operator : BinaryOperator, operator.isAdditive = additive →
    (text.dropWhile isAsciiWhitespace).head? ≠ some operator.symbol

/-! ## What stands in front of a text -/

theorem symbol_boundary (operator : BinaryOperator) :
    isIdentifierContinue operator.symbol = false ∧ operator.symbol ≠ '.' ∧
      isAsciiWhitespace operator.symbol = false := by
  cases operator <;> decide

theorem symbol_injective {operator other : BinaryOperator} (h : operator.symbol = other.symbol) :
    operator = other := by
  cases operator <;> cases other <;> first | rfl | exact absurd h (by decide)

theorem dropWhile_blank {blank text : List Char} {c : Char} (hblank : Blank blank)
    (hc : isAsciiWhitespace c = false) :
    (blank ++ c :: text).dropWhile isAsciiWhitespace = c :: text :=
  dropWhile_append_stop hblank (by rintro _ ⟨⟩; exact hc)

theorem boundary_operator {blank text : List Char} (hblank : Blank blank)
    (operator : BinaryOperator) : Boundary (blank ++ operator.symbol :: text) := by
  obtain ⟨hcontinue, hpoint, -⟩ := symbol_boundary operator
  exact .blank hblank (.cons hcontinue hpoint)

theorem boundary_close {blank text : List Char} (hblank : Blank blank) :
    Boundary (blank ++ ')' :: text) :=
  .blank hblank (.cons (by decide) (by decide))

theorem closed_operator {blank text : List Char} (hblank : Blank blank) {operator : BinaryOperator}
    (hadditive : operator.isAdditive = true) : Closed false (blank ++ operator.symbol :: text) := by
  intro other hother
  rw [dropWhile_blank hblank (symbol_boundary operator).2.2, List.head?_cons]
  intro hsame
  cases symbol_injective (Option.some.inj hsame)
  exact absurd (hadditive.symm.trans hother) nofun

theorem closed_close {additive : Bool} {blank text : List Char} (hblank : Blank blank) :
    Closed additive (blank ++ ')' :: text) := by
  intro other _
  rw [dropWhile_blank hblank (by decide), List.head?_cons]
  cases other <;> decide

theorem isAsciiWhitespace_eq_false {c : Char} (h : isIdentifierContinue c = true ∨ c = '.') :
    isAsciiWhitespace c = false := by
  rw [← Bool.not_eq_true]
  intro hspace
  obtain ⟨hcontinue, hpoint⟩ := boundary_of_isAsciiWhitespace hspace
  rcases h with h | h
  · exact absurd (hcontinue.symm.trans h) nofun
  · exact hpoint h

theorem isIdentifierContinue_of_isDigit {c : Char} (h : c.isDigit = true) :
    isIdentifierContinue c = true := by
  simp [isIdentifierContinue, Char.isAlphanum, h]

theorem isIdentifierContinue_of_isIdentifierStart {c : Char} (h : isIdentifierStart c = true) :
    isIdentifierContinue c = true := by
  simp only [isIdentifierStart, isIdentifierContinue, Char.isAlphanum, Bool.or_eq_true] at h ⊢
  tauto

theorem number_head {text : List Char} (h : Number text) :
    ∃ c others, text = c :: others ∧ (c.isDigit || c == '.') = true := by
  obtain ⟨hmantissa, -⟩ := h
  rename_i mantissa exponent
  have hhead : ∃ c others, mantissa = c :: others ∧ (c.isDigit || c == '.') = true := by
    cases hmantissa with
    | integer hwhole hsome =>
        obtain ⟨c, others, rfl⟩ := List.exists_cons_of_ne_nil hsome
        exact ⟨c, others, rfl, by rw [hwhole c List.mem_cons_self, Bool.true_or]⟩
    | @decimal whole fraction hwhole hfraction hsome =>
        cases whole with
        | nil => exact ⟨'.', fraction, rfl, rfl⟩
        | cons c others =>
            exact ⟨c, _, rfl, by rw [hwhole c List.mem_cons_self, Bool.true_or]⟩
  obtain ⟨c, others, rfl, hc⟩ := hhead
  exact ⟨c, others ++ exponent, rfl, hc⟩

/-- The head of a number is no other token. -/
theorem of_number_head {c : Char} (h : (c.isDigit || c == '.') = true) :
    isAsciiWhitespace c = false ∧ c ≠ '-' ∧ c ≠ '(' := by
  have hc : isIdentifierContinue c = true ∨ c = '.' := by
    rw [Bool.or_eq_true, beq_iff_eq] at h
    exact h.imp_left isIdentifierContinue_of_isDigit
  refine ⟨isAsciiWhitespace_eq_false hc, ?_, ?_⟩ <;> rintro rfl <;> exact absurd h (by decide)

/-- The head of an identifier is no other token. -/
theorem of_identifier_head {c : Char} (h : isIdentifierStart c = true) :
    isAsciiWhitespace c = false ∧ c ≠ '-' ∧ c ≠ '(' ∧ (c.isDigit || c == '.') = false := by
  have hc := isIdentifierContinue_of_isIdentifierStart h
  refine ⟨isAsciiWhitespace_eq_false (.inl hc), ?_, ?_, ?_⟩
  · rintro rfl
    exact absurd h (by decide)
  · rintro rfl
    exact absurd h (by decide)
  · rw [Bool.or_eq_false_iff, beq_eq_false_iff_ne]
    constructor
    · rw [← Bool.not_eq_true]
      intro hdigit
      simp only [isIdentifierStart, Char.isAlpha, Char.isUpper, Char.isLower, Char.isDigit,
        Bool.or_eq_true, Bool.and_eq_true, decide_eq_true_eq, beq_iff_eq] at h hdigit
      rcases h with (h | h) | rfl
      · have hle := UInt32.le_trans h.1 hdigit.2
        exact absurd hle (by decide)
      · have hle := UInt32.le_trans h.1 hdigit.2
        exact absurd hle (by decide)
      · exact absurd hdigit.2 (by decide)
    · rintro rfl
      exact absurd h (by decide)

/-- A primary starts with a character of its own. -/
theorem primary_head {tree : ExpressionTree} {text : List Char}
    (h : Derives F allowed .primary tree text) :
    ∃ c others, text = c :: others ∧ isAsciiWhitespace c = false ∧ c ≠ '-' := by
  cases h with
  | number hnumber =>
      obtain ⟨c, others, htext, hc⟩ := number_head hnumber
      exact ⟨c, others, htext, (of_number_head hc).1, (of_number_head hc).2.1⟩
  | reference hidentifier =>
      obtain ⟨c, others, htext, hc, -⟩ := hidentifier.start
      exact ⟨c, others, htext, (of_identifier_head hc).1, (of_identifier_head hc).2.1⟩
  | parenthesized => exact ⟨_, _, rfl, by decide, by decide⟩

/-! ## Loops -/

variable {additive : Bool} {read loop : Descent} {r : Except Error Parser}

/-- A loop does not tell whitespace in front from none. -/
theorem OperatorLoop.congr (hloop : OperatorLoop additive read loop) {rest rest' : List Char}
    (hrest : rest.dropWhile isAsciiWhitespace = rest'.dropWhile isAsciiWhitespace)
    (instructions : List ExpressionInstruction) :
    loop fuel depth ⟨rest, instructions, set⟩ = loop fuel depth ⟨rest', instructions, set⟩ := by
  cases fuel with
  | zero => rw [hloop.exhausted, hloop.exhausted]
  | succ fuel =>
      by_cases hstop : Closed additive rest
      · have hstop' : Closed additive rest' := fun operator hadditive => hrest ▸ hstop operator hadditive
        rw [hloop.stop fuel depth ⟨rest, instructions, set⟩ hstop,
          hloop.stop fuel depth ⟨rest', instructions, set⟩ hstop', skipWhitespace, skipWhitespace, hrest]
      · unfold Closed at hstop
        push Not at hstop
        obtain ⟨operator, hadditive, hhead⟩ := hstop
        obtain ⟨behind, hbehind⟩ := List.head?_eq_some_iff.1 hhead
        have hbehind' : rest'.dropWhile isAsciiWhitespace = operator.symbol :: behind :=
          hrest.symm.trans hbehind
        rw [hloop.operator operator fuel depth ⟨rest, instructions, set⟩ behind hadditive hbehind,
          hloop.operator operator fuel depth ⟨rest', instructions, set⟩ behind hadditive hbehind']

theorem OperatorLoop.ends (hloop : OperatorLoop additive read loop)
    (hclosed : Closed additive parser.rest) (h : Returns (loop fuel depth parser) r) :
    r = .ok parser.skipWhitespace := by
  cases fuel with
  | zero =>
      rw [hloop.exhausted] at h
      exact absurd h not_returns_none
  | succ fuel =>
      rw [hloop.stop _ _ _ hclosed, returns_pure] at h
      exact h

/-- Emitting an instruction has room or fails. -/
theorem push_outcome (parser : Parser) (instruction : ExpressionInstruction) :
    (maxInstructions ≤ parser.instructions.length ∧ ∃ e, parser.push instruction = .error e) ∨
      (parser.instructions.length < maxInstructions ∧ parser.push instruction =
        .ok { parser with instructions := parser.instructions ++ [instruction] }) := by
  rcases le_or_gt maxInstructions parser.instructions.length with h | h
  · exact .inl ⟨h, exists_push_error h⟩
  · exact .inr ⟨h, push_eq_ok.2 ⟨h, rfl⟩⟩

/-- In front of an operator and its operand the loop reads both, if the bounds leave room. -/
theorem OperatorLoop.join (hloop : OperatorLoop additive read loop) {operator : BinaryOperator}
    {left right : ExpressionTree} {blank text' rest : List Char}
    (hadditive : operator.isAdditive = additive) (hblank : Blank blank)
    (hread : ∀ {fuel : Nat} {parser : Parser} {r : Except Error Parser},
      parser.rest = text' ++ rest → Returns (read fuel depth parser) r →
      Outcome depth parser right r (∃ rest', r = .ok (parser.emit right rest') ∧
        rest'.dropWhile isAsciiWhitespace = rest.dropWhile isAsciiWhitespace))
    (hleft : parser.Fits depth left)
    (h : Returns (loop fuel depth
      (parser.emit left (blank ++ operator.symbol :: (text' ++ rest)))) r) :
    Outcome depth parser (.binary operator left right) r
      (∃ fuel', Returns (loop fuel' depth (parser.emit (.binary operator left right) rest)) r) := by
  have hdepth : ∀ bound, depth + (ExpressionTree.binary operator left right).depth ≤ bound ↔
      depth + left.depth ≤ bound ∧ depth + right.depth ≤ bound := by
    intro bound
    rw [ExpressionTree.depth]
    omega
  cases fuel with
  | zero =>
      rw [hloop.exhausted] at h
      exact absurd h not_returns_none
  | succ fuel =>
      have hskip : (parser.emit left (blank ++ operator.symbol :: (text' ++ rest))).skipWhitespace.rest =
          operator.symbol :: (text' ++ rest) :=
        dropWhile_blank hblank (symbol_boundary operator).2.2
      rw [hloop.operator operator fuel depth _ _ hadditive hskip] at h
      have hlength : (parser.emit left (text' ++ rest)).instructions.length =
          parser.instructions.length + left.size := by
        rw [emit, List.length_append, ExpressionTree.length_instructions]
      have hbehind : (parser.emit left (text' ++ rest)).rest = text' ++ rest := rfl
      rcases returns_bind.1 h with ⟨e, hoperand, rfl⟩ | ⟨parser₁, hoperand, h⟩
      · -- the operand fails, so it does not fit
        rcases hread hbehind hoperand with
          ⟨hfits, -⟩ | ⟨-, _, habsurd, -⟩
        · refine .inl ⟨fun hboth => hfits ⟨((hdepth _).1 hboth.1).2, ?_⟩, e, rfl⟩
          have hsize := hboth.2
          rw [ExpressionTree.size] at hsize
          omega
        · cases habsurd
      · rcases hread hbehind hoperand with
          ⟨-, _, habsurd⟩ | ⟨hfits, rest', heq, hrest'⟩
        · cases habsurd
        · cases heq
          have hlength' : ((parser.emit left (text' ++ rest)).emit right rest').instructions.length =
              parser.instructions.length + left.size + right.size := by
            rw [emit, List.length_append, ExpressionTree.length_instructions, hlength]
          rcases push_outcome ((parser.emit left (text' ++ rest)).emit right rest')
            operator.instruction with ⟨hfull, e, hpush⟩ | ⟨hroom, hpush⟩
          · -- no room for the operation
            rw [hpush] at h
            rcases returns_bind.1 h with ⟨e', he', rfl⟩ | ⟨_, habsurd, -⟩
            · refine .inl ⟨fun hboth => ?_, e', rfl⟩
              have hsize := hboth.2
              rw [ExpressionTree.size] at hsize
              omega
            · cases returns_lift.1 habsurd
          · rw [hpush] at h
            rcases returns_bind.1 h with ⟨_, habsurd, -⟩ | ⟨parser₂, hok, h⟩
            · cases returns_lift.1 habsurd
            · cases returns_lift.1 hok
              refine .inr ⟨⟨(hdepth _).2 ⟨hleft.1, hfits.1⟩, ?_⟩, fuel, ?_⟩
              · rw [ExpressionTree.size]
                omega
              · rw [emit, hloop.congr hrest'.symm]
                simpa only [emit, ExpressionTree.instructions, ExpressionTree.refer,
                  List.append_assoc] using h

/-! ## Primaries -/

theorem parsePrimary_number {c : Char} {others : List Char}
    (hrest : parser.skipWhitespace.rest = c :: others) (hc : (c.isDigit || c == '.') = true) :
    parsePrimary F set (fuel + 1) depth parser = liftM (parser.skipWhitespace.parseNumber F) := by
  rw [parsePrimary]
  split
  · rename_i hopen
    exact absurd (List.cons.inj (hrest.symm.trans hopen)).1 (of_number_head hc).2.2
  · rename_i hsome
    cases hrest.symm.trans hsome
    rw [if_pos hc]
  · rename_i hnone
    cases hrest.symm.trans hnone

theorem parsePrimary_variable {c : Char} {others : List Char}
    (hrest : parser.skipWhitespace.rest = c :: others) (hc : isIdentifierStart c = true) :
    parsePrimary F set (fuel + 1) depth parser = liftM (parser.skipWhitespace.parseVariable set) := by
  obtain ⟨-, -, hopen, hnumber⟩ := of_identifier_head hc
  rw [parsePrimary]
  split
  · rename_i hparenthesis
    exact absurd (List.cons.inj (hrest.symm.trans hparenthesis)).1 hopen
  · rename_i hsome
    cases hrest.symm.trans hsome
    rw [if_neg (by rw [hnumber]; exact Bool.false_ne_true), if_pos hc]
  · rename_i hnone
    cases hrest.symm.trans hnone

theorem skipWhitespace_of_head {c : Char} {others : List Char} (hrest : parser.rest = c :: others)
    (hc : isAsciiWhitespace c = false) : parser.skipWhitespace = parser := by
  have hnone : parser.rest = [] ++ c :: others := hrest
  have hempty : Blank [] := nofun
  have hskip := skipWhitespace_eq hempty (by rintro _ ⟨⟩; exact hc) hnone
  rw [hskip, ← hrest]

/-- A leaf is emitted or there is no room for it. -/
theorem leaf_outcome {tree : ExpressionTree} {instruction : ExpressionInstruction}
    {rest : List Char} (hdepth : depth ≤ maxDepth) (hflat : tree.depth = 0)
    (htree : tree.instructions = [instruction]) {pushed : Parser}
    (hpushed : pushed = ⟨rest, parser.instructions, tree.refer parser.referenced⟩)
    (h : r = pushed.push instruction) :
    Outcome depth parser tree r (r = .ok (parser.emit tree rest)) := by
  have hsize : tree.size = 1 := by rw [← tree.length_instructions, htree]; rfl
  subst hpushed
  rcases push_outcome ⟨rest, parser.instructions, tree.refer parser.referenced⟩ instruction with
    ⟨hfull, e, hpush⟩ | ⟨hroom, hpush⟩
  · refine .inl ⟨fun hfits => ?_, e, h.trans hpush⟩
    have hsmall := hfits.2
    dsimp only at hfull
    omega
  · refine .inr ⟨⟨by omega, ?_⟩, ?_⟩
    · dsimp only at hroom
      omega
    · rw [h, hpush, emit, htree]

section

variable {text rest : List Char}

theorem number_complete (hnumber : Number text)
    (hfinite : Scalar.isFinite (Scalar.literal (String.ofList text) : F) = true)
    (hrest : parser.rest = text ++ rest) (hboundary : Boundary rest) (hdepth : depth ≤ maxDepth)
    (h : Returns (parsePrimary F set fuel depth parser) r) :
    Outcome depth parser (.number (String.ofList text)) r
      (r = .ok (parser.emit (.number (String.ofList text)) rest)) := by
  obtain ⟨c, others, htext, hc⟩ := number_head hnumber
  have hhead : parser.rest = c :: (others ++ rest) := by rw [hrest, htext, List.cons_append]
  have hskip := skipWhitespace_of_head hhead (of_number_head hc).1
  cases fuel with
  | zero =>
      rw [parsePrimary] at h
      exact absurd h not_returns_none
  | succ fuel =>
      rw [parsePrimary_number (hskip.symm ▸ hhead) hc, hskip, returns_lift, parseNumber, hrest,
        scanNumber_complete hnumber hboundary] at h
      refine leaf_outcome hdepth rfl rfl rfl (h.trans ?_)
      simp only [bind, Except.bind, rejectIf, hfinite, Bool.true_eq_false, if_false]
      rfl

theorem variable_complete (hset : ∀ name, name ∈ allowed → name ∈ set) (hidentifier : IsIdentifier text)
    (hallowed : ⟨String.ofList text⟩ ∈ allowed) (hrest : parser.rest = text ++ rest)
    (hboundary : Boundary rest) (hdepth : depth ≤ maxDepth)
    (h : Returns (parsePrimary F set fuel depth parser) r) :
    Outcome depth parser (.reference ⟨String.ofList text⟩) r
      (r = .ok (parser.emit (.reference ⟨String.ofList text⟩) rest)) := by
  obtain ⟨c, others, htext, hc, hothers⟩ := hidentifier.start
  have hhead : parser.rest = c :: (others ++ rest) := by rw [hrest, htext, List.cons_append]
  have hskip := skipWhitespace_of_head hhead (of_identifier_head hc).1
  have hstop : ∀ c ∈ rest.head?, isIdentifierContinue c = false := fun c hc => (hboundary c hc).1
  have hname : newVariableName (String.ofList (c :: others)) = .ok ⟨String.ofList text⟩ :=
    htext ▸ newVariableName_eq_ok.2 ⟨hidentifier, rfl⟩
  cases fuel with
  | zero =>
      rw [parsePrimary] at h
      exact absurd h not_returns_none
  | succ fuel =>
      rw [parsePrimary_variable (hskip.symm ▸ hhead) hc, hskip, returns_lift, parseVariable, hhead] at h
      simp only [List.head?_cons, Option.toList_some, List.tail_cons, takeWhile_append_stop hothers hstop,
        dropWhile_append_stop hothers hstop, List.singleton_append, hname] at h
      refine leaf_outcome hdepth rfl rfl rfl (h.trans ?_)
      simp only [bind, Except.bind, rejectIf, hset _ hallowed, not_true_eq_false, if_false]
      rfl

end

/-! ## Derivations -/

variable (F set) in
/-- What the descent for a category does in front of a text of that category. -/
def Completes (category : Category) (tree : ExpressionTree) (text : List Char) : Prop :=
  ∀ {fuel depth : Nat} {parser : Parser} {rest : List Char} {r : Except Error Parser},
    parser.rest = text ++ rest → Boundary rest → depth ≤ maxDepth →
    match category with
    | .primary => Returns (parsePrimary F set fuel depth parser) r →
        Outcome depth parser tree r (r = .ok (parser.emit tree rest))
    | .unary => Returns (parseUnary F set fuel depth parser) r →
        Outcome depth parser tree r (r = .ok (parser.emit tree rest))
    | .term => Returns (parseTerm F set fuel depth parser) r →
        Outcome depth parser tree r
          (∃ fuel', Returns (termLoop F set fuel' depth (parser.emit tree rest)) r)
    | .expression => Closed false rest → Returns (parseExpression F set fuel depth parser) r →
        Outcome depth parser tree r
          (∃ fuel', Returns (expressionLoop F set fuel' depth (parser.emit tree rest)) r)

theorem Outcome.imp {tree : ExpressionTree} {next next' : Prop}
    (h : Outcome depth parser tree r next) (himp : next → next') :
    Outcome depth parser tree r next' :=
  h.imp_right (And.imp_right himp)

/-- A term reads up to what no factor continues. -/
theorem term_reads {tree : ExpressionTree} {text rest : List Char}
    (h : Completes F set .term tree text) (hrest : parser.rest = text ++ rest)
    (hboundary : Boundary rest) (hdepth : depth ≤ maxDepth) (hclosed : Closed false rest)
    (hreturns : Returns (parseTerm F set fuel depth parser) r) :
    Outcome depth parser tree r (∃ rest', r = .ok (parser.emit tree rest') ∧
      rest'.dropWhile isAsciiWhitespace = rest.dropWhile isAsciiWhitespace) := by
  refine (h hrest hboundary hdepth hreturns).imp ?_
  rintro ⟨fuel', hloop⟩
  have hclosed : Closed false (parser.emit tree rest).rest := hclosed
  have hends := (termLoop_operatorLoop F set).ends hclosed hloop
  exact ⟨rest.dropWhile isAsciiWhitespace, hends, List.dropWhile_idempotent _ _⟩

theorem primary_unary {tree : ExpressionTree} {blank text : List Char} (hblank : Blank blank)
    (htree : Derives F allowed .primary tree text) (h : Completes F set .primary tree text) :
    Completes F set .unary tree (blank ++ text) := by
  intro fuel depth parser rest r hrest hboundary hdepth hreturns
  obtain ⟨c, others, htext, hc, hsign⟩ := primary_head htree
  have hskip : parser.skipWhitespace = { parser with rest := text ++ rest } := by
    apply skipWhitespace_eq hblank
    · rw [htext]
      rintro _ ⟨⟩
      exact hc
    · rw [hrest, List.append_assoc]
  cases fuel with
  | zero =>
      rw [parseUnary] at hreturns
      exact absurd hreturns not_returns_none
  | succ fuel =>
      rw [parseUnary, hskip] at hreturns
      split at hreturns
      · rename_i hminus
        rw [htext] at hminus
        exact absurd (List.cons.inj hminus).1 hsign
      · have hrest' : ({ parser with rest := text ++ rest } : Parser).rest = text ++ rest := rfl
        have houtcome := h hrest' hboundary hdepth hreturns
        exact houtcome

theorem negate_unary {operand : ExpressionTree} {blank text : List Char} (hblank : Blank blank)
    (h : Completes F set .unary operand text) :
    Completes F set .unary (.negate operand) (blank ++ '-' :: text) := by
  intro fuel depth parser rest r hrest hboundary hdepth hreturns
  have hskip : parser.skipWhitespace = { parser with rest := '-' :: (text ++ rest) } := by
    apply skipWhitespace_eq hblank
    · rintro _ ⟨⟩
      rfl
    · rw [hrest, List.append_assoc, List.cons_append]
  cases fuel with
  | zero =>
      rw [parseUnary] at hreturns
      exact absurd hreturns not_returns_none
  | succ fuel =>
      rw [parseUnary, hskip] at hreturns
      dsimp only at hreturns
      rcases returns_bind.1 hreturns with ⟨e, hcheck, rfl⟩ | ⟨⟨⟩, hcheck, hreturns⟩
      · -- nested too deep
        refine .inl ⟨fun hfits => ?_, e, rfl⟩
        obtain ⟨hdeep, -⟩ := rejectIf_eq_error.1 (returns_lift.1 hcheck).symm
        have hinner := hfits.1
        rw [ExpressionTree.depth] at hinner
        omega
      · have hdeeper : depth < maxDepth := checkDepth_eq_ok.1 (returns_lift.1 hcheck).symm
        have hfits : ∀ {p : Parser}, p.instructions = parser.instructions →
            (parser.Fits depth (.negate operand) ↔ p.Fits (depth + 1) operand ∧
              p.instructions.length + operand.size < maxInstructions) := by
          intro p hp
          rw [Fits, Fits, ExpressionTree.depth, ExpressionTree.size, hp]
          omega
        rcases returns_bind.1 hreturns with ⟨e, hoperand, rfl⟩ | ⟨parser₁, hoperand, hreturns⟩
        · rcases h rfl hboundary hdeeper hoperand with ⟨hnot, -⟩ | ⟨-, habsurd⟩
          · exact .inl ⟨fun hboth => hnot ((hfits rfl).1 hboth).1, e, rfl⟩
          · cases habsurd
        · rcases h rfl hboundary hdeeper hoperand with ⟨-, _, habsurd⟩ | ⟨hinner, heq⟩
          · cases habsurd
          · cases heq
            have hlength : (Parser.emit { parser with rest := text ++ rest } operand rest).instructions.length =
                parser.instructions.length + operand.size := by
              rw [emit, List.length_append, ExpressionTree.length_instructions]
            rw [returns_lift] at hreturns
            rcases push_outcome (Parser.emit { parser with rest := text ++ rest } operand rest) .negate with
              ⟨hfull, e, hpush⟩ | ⟨hroom, hpush⟩
            · refine .inl ⟨fun hboth => ?_, e, hreturns.trans hpush⟩
              have hsize := ((hfits rfl).1 hboth).2
              omega
            · refine .inr ⟨(hfits rfl).2 ⟨hinner, hlength ▸ hroom⟩, (hreturns.trans hpush).trans ?_⟩
              simp only [emit, ExpressionTree.instructions, ExpressionTree.refer, List.append_assoc]

theorem parenthesized_primary {inner : ExpressionTree} {text blank : List Char}
    (hblank : Blank blank) (h : Completes F set .expression inner text) :
    Completes F set .primary (.parenthesized inner) ('(' :: (text ++ blank ++ [')'])) := by
  intro fuel depth parser rest r hrest hboundary hdepth hreturns
  have hrest' : parser.rest = '(' :: (text ++ (blank ++ ')' :: rest)) := by
    rw [hrest]
    simp only [List.cons_append, List.append_assoc, List.nil_append]
  have hskip := skipWhitespace_of_head hrest' (by decide)
  cases fuel with
  | zero =>
      rw [parsePrimary] at hreturns
      exact absurd hreturns not_returns_none
  | succ fuel =>
      rw [parsePrimary, hskip] at hreturns
      simp only [hrest'] at hreturns
      have hfits : ∀ {p : Parser}, p.instructions = parser.instructions →
          (parser.Fits depth (.parenthesized inner) ↔ p.Fits (depth + 1) inner) := by
        intro p hp
        rw [Fits, Fits, ExpressionTree.depth, ExpressionTree.size, hp]
        omega
      rcases returns_bind.1 hreturns with ⟨e, hcheck, rfl⟩ | ⟨⟨⟩, hcheck, hreturns⟩
      · -- nested too deep
        refine .inl ⟨fun hboth => ?_, e, rfl⟩
        obtain ⟨hdeep, -⟩ := rejectIf_eq_error.1 (returns_lift.1 hcheck).symm
        have hinner := hboth.1
        rw [ExpressionTree.depth] at hinner
        omega
      · have hdeeper : depth < maxDepth := checkDepth_eq_ok.1 (returns_lift.1 hcheck).symm
        have hclose : ∀ {r'}, (∃ fuel', Returns (expressionLoop F set fuel' (depth + 1)
            (Parser.emit { parser with rest := text ++ (blank ++ ')' :: rest) } inner
              (blank ++ ')' :: rest))) r') →
            r' = .ok (parser.emit inner (')' :: rest)) := by
          rintro r' ⟨fuel', hloop⟩
          have hclosed : Closed true (Parser.emit
              { parser with rest := text ++ (blank ++ ')' :: rest) } inner
                (blank ++ ')' :: rest)).rest := closed_close hblank
          have hends := (expressionLoop_operatorLoop F set).ends hclosed hloop
          rw [hends, skipWhitespace, emit, dropWhile_blank hblank (by decide)]
          rfl
        rcases returns_bind.1 hreturns with ⟨e, hinner, rfl⟩ | ⟨parser₁, hinner, hreturns⟩
        · rcases h rfl (boundary_close hblank) hdeeper (closed_close hblank) hinner with
            ⟨hnot, -⟩ | ⟨-, hloop⟩
          · exact .inl ⟨fun hboth => hnot ((hfits rfl).1 hboth), e, rfl⟩
          · cases hclose hloop
        · rcases h rfl (boundary_close hblank) hdeeper (closed_close hblank) hinner with
            ⟨-, _, habsurd⟩ | ⟨hinside, hloop⟩
          · cases habsurd
          · cases hclose hloop
            rw [skipWhitespace_of_head rfl (by decide)] at hreturns
            exact .inr ⟨(hfits rfl).2 hinside, returns_pure.1 hreturns⟩

/-- An operation does not fit where its left operand does not. -/
theorem Fits.left {operator : BinaryOperator} {left right : ExpressionTree}
    (h : parser.Fits depth (.binary operator left right)) : parser.Fits depth left := by
  obtain ⟨hdepth, hsize⟩ := h
  rw [ExpressionTree.depth] at hdepth
  rw [ExpressionTree.size] at hsize
  exact ⟨by omega, by omega⟩

/-- A chain of operators grows by one operation. -/
theorem Outcome.join (hloop : OperatorLoop additive read loop) {operator : BinaryOperator}
    {left right : ExpressionTree} {blank text' rest : List Char}
    (hadditive : operator.isAdditive = additive) (hblank : Blank blank)
    (hread : ∀ {fuel : Nat} {parser : Parser} {r : Except Error Parser},
      parser.rest = text' ++ rest → Returns (read fuel depth parser) r →
      Outcome depth parser right r (∃ rest', r = .ok (parser.emit right rest') ∧
        rest'.dropWhile isAsciiWhitespace = rest.dropWhile isAsciiWhitespace))
    (h : Outcome depth parser left r (∃ fuel', Returns (loop fuel' depth
      (parser.emit left (blank ++ operator.symbol :: (text' ++ rest)))) r)) :
    Outcome depth parser (.binary operator left right) r
      (∃ fuel', Returns (loop fuel' depth (parser.emit (.binary operator left right) rest)) r) := by
  rcases h with ⟨hnot, he⟩ | ⟨hfits, fuel', hreturns⟩
  · exact .inl ⟨fun hboth => hnot hboth.left, he⟩
  · exact hloop.join hadditive hblank hread hfits hreturns

/-- What the grammar derives, the descent reads. -/
theorem complete (hset : ∀ name, name ∈ allowed → name ∈ set) {category : Category}
    {tree : ExpressionTree} {text : List Char} (h : Derives F allowed category tree text) :
    Completes F set category tree text := by
  induction h with
  | number hnumber hfinite =>
      intro fuel depth parser rest r hrest hboundary hdepth hreturns
      exact number_complete hnumber hfinite hrest hboundary hdepth hreturns
  | reference hidentifier hallowed =>
      intro fuel depth parser rest r hrest hboundary hdepth hreturns
      exact variable_complete hset hidentifier hallowed hrest hboundary hdepth hreturns
  | parenthesized hinner hblank ih => exact parenthesized_primary hblank ih
  | primary hblank htree ih => exact primary_unary hblank htree ih
  | negate hblank hoperand ih => exact negate_unary hblank ih
  | unary htree ih =>
      intro fuel depth parser rest r hrest hboundary hdepth hreturns
      cases fuel with
      | zero =>
          rw [parseTerm] at hreturns
          exact absurd hreturns not_returns_none
      | succ fuel =>
          rw [parseTerm] at hreturns
          rcases returns_bind.1 hreturns with ⟨e, hunary, rfl⟩ | ⟨parser₁, hunary, hloop⟩
          · exact (ih hrest hboundary hdepth hunary).imp fun habsurd => by cases habsurd
          · refine (ih hrest hboundary hdepth hunary).elim (fun hnot => ?_) fun hfits => ?_
            · obtain ⟨-, _, habsurd⟩ := hnot
              cases habsurd
            · obtain ⟨hfits, heq⟩ := hfits
              cases heq
              exact .inr ⟨hfits, fuel, hloop⟩
  | @product operator left right text blank text' hoperator hleft hblank hright ihl ihr =>
      intro fuel depth parser rest r hrest hboundary hdepth hreturns
      rw [List.append_assoc, List.append_assoc, List.cons_append] at hrest
      refine Outcome.join (termLoop_operatorLoop F set) hoperator hblank ?_
        (ihl hrest (boundary_operator hblank operator) hdepth hreturns)
      intro fuel parser r hrest' hread
      exact (ihr hrest' hboundary hdepth hread).imp fun heq => ⟨rest, heq, rfl⟩
  | term htree ih =>
      intro fuel depth parser rest r hrest hboundary hdepth hclosed hreturns
      cases fuel with
      | zero =>
          rw [parseExpression] at hreturns
          exact absurd hreturns not_returns_none
      | succ fuel =>
          rw [parseExpression] at hreturns
          rcases returns_bind.1 hreturns with ⟨e, hterm, rfl⟩ | ⟨parser₁, hterm, hloop⟩
          · exact (term_reads ih hrest hboundary hdepth hclosed hterm).imp (by rintro ⟨_, ⟨⟩, _⟩)
          · rcases term_reads ih hrest hboundary hdepth hclosed hterm with
              ⟨-, _, habsurd⟩ | ⟨hfits, rest', heq, hrest'⟩
            · cases habsurd
            · cases heq
              refine .inr ⟨hfits, fuel, ?_⟩
              rw [emit, (expressionLoop_operatorLoop F set).congr hrest'.symm]
              exact hloop
  | @sum operator left right text blank text' hoperator hleft hblank hright ihl ihr =>
      intro fuel depth parser rest r hrest hboundary hdepth hclosed hreturns
      rw [List.append_assoc, List.append_assoc, List.cons_append] at hrest
      refine Outcome.join (expressionLoop_operatorLoop F set) hoperator hblank ?_
        (ihl hrest (boundary_operator hblank operator) hdepth (closed_operator hblank hoperator)
          hreturns)
      intro fuel parser r hrest' hread
      exact term_reads ihr hrest' hboundary hdepth hclosed hread

end Parser
end Graph
end Superi

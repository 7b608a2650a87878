import Mathlib
import Superi.Graph.ExprParser

/-!
# ExprGrammar — the expression language

The language by its grammar, and the meaning of a parse tree.  Sums associate to the left and bind
weaker than products, and products weaker than a sign; ASCII whitespace may stand before every
token.

A scanner takes the longest token in front.  The grammar does not say so: where a token ends is
decided by what may stand behind it, and no token can be continued by a blank, an operator or a
parenthesis.
-/

namespace Superi
namespace Graph

open Core Result

/-! ## Tokens -/

/-- Text that separates tokens. -/
def Blank (text : List Char) : Prop :=
  ∀ c ∈ text, isAsciiWhitespace c = true

def Digits (text : List Char) : Prop :=
  ∀ c ∈ text, c.isDigit = true

/-- Digits with an optional point among them; there is at least one digit. -/
inductive Mantissa : List Char → Prop
  | integer {whole : List Char} (hwhole : Digits whole) (hsome : whole ≠ []) : Mantissa whole
  | decimal {whole fraction : List Char} (hwhole : Digits whole) (hfraction : Digits fraction)
      (hsome : whole ≠ [] ∨ fraction ≠ []) : Mantissa (whole ++ '.' :: fraction)

inductive Sign : List Char → Prop
  | absent : Sign []
  | plus : Sign ['+']
  | minus : Sign ['-']

inductive Exponent : List Char → Prop
  | absent : Exponent []
  | present {mark : Char} {sign digits : List Char} (hmark : isExponentMark mark = true)
      (hsign : Sign sign) (hdigits : Digits digits) (hsome : digits ≠ []) :
      Exponent (mark :: (sign ++ digits))

/-- A decimal literal. -/
inductive Number : List Char → Prop
  | intro {mantissa exponent : List Char} (hmantissa : Mantissa mantissa)
      (hexponent : Exponent exponent) : Number (mantissa ++ exponent)

/-- An identifier of bounded length. -/
structure IsIdentifier (text : List Char) : Prop where
  start : ∃ first others, text = first :: others ∧ isIdentifierStart first = true ∧
    ∀ c ∈ others, isIdentifierContinue c = true
  bounded : (String.ofList text).utf8ByteSize ≤ maxVariableBytes

/-! ## Trees -/

inductive BinaryOperator
  | add
  | subtract
  | multiply
  | divide
  deriving DecidableEq, Repr

namespace BinaryOperator

def symbol : BinaryOperator → Char
  | add => '+'
  | subtract => '-'
  | multiply => '*'
  | divide => '/'

/-- Whether the operator joins terms of a sum, not factors of a product. -/
def isAdditive : BinaryOperator → Bool
  | add | subtract => true
  | multiply | divide => false

def instruction : BinaryOperator → ExpressionInstruction
  | add => .add
  | subtract => .subtract
  | multiply => .multiply
  | divide => .divide

/-- The value of an operation; only a division is refused. -/
def apply {F : Type} [Scalar F] : BinaryOperator → F → F → Except Error F
  | add, left, right => pure (Scalar.add left right)
  | subtract, left, right => pure (Scalar.sub left right)
  | multiply, left, right => pure (Scalar.mul left right)
  | divide, left, right => do
      rejectIf (Scalar.isZero right = true)
        (expressionError "evaluate" "parameter expression divides by zero")
      pure (Scalar.div left right)

end BinaryOperator

/-- A parse tree. -/
inductive ExpressionTree
  | number (literal : String)
  | reference (name : ExpressionVariableName)
  | parenthesized (inner : ExpressionTree)
  | negate (operand : ExpressionTree)
  | binary (operator : BinaryOperator) (left right : ExpressionTree)

namespace ExpressionTree

/-- The variables of the tree. -/
def Mentions (name : ExpressionVariableName) : ExpressionTree → Prop
  | .number _ => False
  | .reference other => other = name
  | .parenthesized inner => inner.Mentions name
  | .negate operand => operand.Mentions name
  | .binary _ left right => left.Mentions name ∨ right.Mentions name

/-- How deep parentheses and signs are nested. -/
def depth : ExpressionTree → Nat
  | .number _ => 0
  | .reference _ => 0
  | .parenthesized inner => inner.depth + 1
  | .negate operand => operand.depth + 1
  | .binary _ left right => max left.depth right.depth

/-- How many values and operations the tree has. -/
def size : ExpressionTree → Nat
  | .number _ => 1
  | .reference _ => 1
  | .parenthesized inner => inner.size
  | .negate operand => operand.size + 1
  | .binary _ left right => left.size + right.size + 1

variable {F : Type} [Scalar F]

/-- Refuse a value that is not finite. -/
def finite (value : F) : Except Error F := do
  rejectIf (Scalar.isFinite value = false)
    (expressionError "evaluate" "parameter expression produced a nonfinite value")
  pure value

/-- The value of the tree; operands are evaluated from left to right. -/
def evaluate (resolve : ExpressionVariableName → Except Error F) : ExpressionTree → Except Error F
  | .number literal => finite (Scalar.literal literal)
  | .reference name => do
      let value ← resolve name
      rejectIf (Scalar.isFinite value = false)
        (expressionError "evaluate" "expression variable resolved to a nonfinite value")
      finite value
  | .parenthesized inner => inner.evaluate resolve
  | .negate operand => do
      let value ← operand.evaluate resolve
      finite (Scalar.neg value)
  | .binary operator left right => do
      let leftValue ← left.evaluate resolve
      let rightValue ← right.evaluate resolve
      let value ← operator.apply leftValue rightValue
      finite value

end ExpressionTree

/-! ## Grammar -/

/-- The levels of the grammar. -/
inductive Category
  | primary
  | unary
  | term
  | expression
  deriving DecidableEq, Repr

/-- The text has the tree as a parse tree of the category. -/
inductive Derives (F : Type) [Scalar F] (allowed : List ExpressionVariableName) :
    Category → ExpressionTree → List Char → Prop
  | number {text : List Char} (hnumber : Number text)
      (hfinite : Scalar.isFinite (Scalar.literal (String.ofList text) : F) = true) :
      Derives F allowed .primary (.number (String.ofList text)) text
  | reference {text : List Char} (hidentifier : IsIdentifier text)
      (hallowed : ⟨String.ofList text⟩ ∈ allowed) :
      Derives F allowed .primary (.reference ⟨String.ofList text⟩) text
  | parenthesized {inner : ExpressionTree} {text blank : List Char}
      (hinner : Derives F allowed .expression inner text) (hblank : Blank blank) :
      Derives F allowed .primary (.parenthesized inner) ('(' :: (text ++ blank ++ [')']))
  | primary {tree : ExpressionTree} {blank text : List Char} (hblank : Blank blank)
      (htree : Derives F allowed .primary tree text) :
      Derives F allowed .unary tree (blank ++ text)
  | negate {operand : ExpressionTree} {blank text : List Char} (hblank : Blank blank)
      (hoperand : Derives F allowed .unary operand text) :
      Derives F allowed .unary (.negate operand) (blank ++ '-' :: text)
  | unary {tree : ExpressionTree} {text : List Char} (htree : Derives F allowed .unary tree text) :
      Derives F allowed .term tree text
  | product {operator : BinaryOperator} {left right : ExpressionTree} {text blank text' : List Char}
      (hoperator : operator.isAdditive = false) (hleft : Derives F allowed .term left text)
      (hblank : Blank blank) (hright : Derives F allowed .unary right text') :
      Derives F allowed .term (.binary operator left right)
        (text ++ (blank ++ operator.symbol :: text'))
  | term {tree : ExpressionTree} {text : List Char} (htree : Derives F allowed .term tree text) :
      Derives F allowed .expression tree text
  | sum {operator : BinaryOperator} {left right : ExpressionTree} {text blank text' : List Char}
      (hoperator : operator.isAdditive = true) (hleft : Derives F allowed .expression left text)
      (hblank : Blank blank) (hright : Derives F allowed .term right text') :
      Derives F allowed .expression (.binary operator left right)
        (text ++ (blank ++ operator.symbol :: text'))

/-- The source, without the whitespace around it, is an expression of the language. -/
def Parses (F : Type) [Scalar F] (allowed : List ExpressionVariableName) (source : String)
    (tree : ExpressionTree) : Prop :=
  ∃ text blank, (trim source).toList = text ++ blank ∧ Blank blank ∧
    Derives F allowed .expression tree text

/-- The bounds of the language: the length of the source, the number of instructions and the depth.
-/
structure Bounded (source : String) (tree : ExpressionTree) : Prop where
  source : (trim source).utf8ByteSize ≤ maxSourceBytes
  instructions : tree.size ≤ maxInstructions
  depth : tree.depth ≤ maxDepth

/-- The text does not continue a number or an identifier in front of it. -/
def Boundary (text : List Char) : Prop :=
  ∀ c ∈ text.head?, isIdentifierContinue c = false ∧ c ≠ '.'

theorem Boundary.nil : Boundary [] := nofun

theorem Boundary.cons {c : Char} {text : List Char} (h : isIdentifierContinue c = false)
    (hpoint : c ≠ '.') : Boundary (c :: text) := by
  rintro _ ⟨⟩
  exact ⟨h, hpoint⟩

/-! ## Classes -/

theorem isDigit_eq_false {c : Char} (h : isIdentifierContinue c = false) : c.isDigit = false := by
  simp only [isIdentifierContinue, Char.isAlphanum, Bool.or_eq_false_iff] at h
  exact h.1.2

theorem isIdentifierContinue_of_mark {c : Char} (h : isExponentMark c = true) :
    isIdentifierContinue c = true := by
  simp only [isExponentMark, Bool.or_eq_true, beq_iff_eq] at h
  rcases h with rfl | rfl <;> decide

/-- Whitespace does not continue a token. -/
theorem boundary_of_isAsciiWhitespace {c : Char} (h : isAsciiWhitespace c = true) :
    isIdentifierContinue c = false ∧ c ≠ '.' := by
  simp only [isAsciiWhitespace, Bool.or_eq_true, beq_iff_eq, or_assoc] at h
  rcases h with rfl | rfl | rfl | rfl | rfl <;> decide

/-- Behind blanks that are followed by a boundary there is a boundary. -/
theorem Boundary.blank {blank text : List Char} (h : Blank blank) (htext : Boundary text) :
    Boundary (blank ++ text) := by
  cases blank with
  | nil => exact htext
  | cons c blank =>
      obtain ⟨hcontinue, hpoint⟩ := boundary_of_isAsciiWhitespace (h c List.mem_cons_self)
      exact .cons hcontinue hpoint

/-! ## Runs of one class -/

section

variable {p : Char → Bool} {front rest : List Char}

theorem takeWhile_append_stop (hfront : ∀ c ∈ front, p c = true)
    (hrest : ∀ c ∈ rest.head?, p c = false) : (front ++ rest).takeWhile p = front := by
  rw [List.takeWhile_append_of_pos hfront]
  cases rest with
  | nil => simp
  | cons c rest => simp [hrest c rfl]

theorem dropWhile_append_stop (hfront : ∀ c ∈ front, p c = true)
    (hrest : ∀ c ∈ rest.head?, p c = false) : (front ++ rest).dropWhile p = rest := by
  rw [List.dropWhile_append_of_pos hfront]
  cases rest with
  | nil => rfl
  | cons c rest => simp [hrest c rfl]

end

theorem scanDigits_append {digits rest : List Char} (hdigits : Digits digits)
    (hrest : ∀ c ∈ rest.head?, c.isDigit = false) : scanDigits (digits ++ rest) = (digits, rest) := by
  rw [scanDigits, List.span_eq_takeWhile_dropWhile, takeWhile_append_stop hdigits hrest,
    dropWhile_append_stop hdigits hrest]

theorem scanDigits_spec (text : List Char) :
    text = (scanDigits text).1 ++ (scanDigits text).2 ∧ Digits (scanDigits text).1 := by
  rw [scanDigits, List.span_eq_takeWhile_dropWhile]
  exact ⟨List.takeWhile_append_dropWhile.symm, fun c hc => List.mem_takeWhile_imp hc⟩

/-! ## Numbers -/

theorem scanSign_spec (text : List Char) :
    text = (scanSign text).1 ++ (scanSign text).2 ∧ Sign (scanSign text).1 := by
  unfold scanSign
  split
  · exact ⟨rfl, .plus⟩
  · exact ⟨rfl, .minus⟩
  · exact ⟨rfl, .absent⟩

theorem scanSign_append {sign rest : List Char} (hsign : Sign sign)
    (hrest : ∀ c ∈ rest.head?, c ≠ '+' ∧ c ≠ '-') : scanSign (sign ++ rest) = (sign, rest) := by
  cases hsign with
  | plus => rfl
  | minus => rfl
  | absent =>
      rw [List.nil_append]
      unfold scanSign
      split
      · exact absurd rfl (hrest _ rfl).1
      · exact absurd rfl (hrest _ rfl).2
      · rfl

theorem scanExponent_sound {text exponent rest : List Char}
    (h : scanExponent text = .ok (exponent, rest)) : text = exponent ++ rest ∧ Exponent exponent := by
  cases text with
  | nil =>
      cases h
      exact ⟨rfl, .absent⟩
  | cons mark text =>
      rw [scanExponent] at h
      split at h
      · rename_i hmark
        obtain ⟨htext, hsign⟩ := scanSign_spec text
        generalize scanSign text = signed at h htext hsign
        obtain ⟨sign, unsigned⟩ := signed
        dsimp only at h htext hsign
        obtain ⟨hbehind, hdigits⟩ := scanDigits_spec unsigned
        generalize scanDigits unsigned = scanned at h hbehind hdigits
        obtain ⟨digits, behind⟩ := scanned
        dsimp only at h hbehind hdigits
        obtain ⟨⟨⟩, hsome, h⟩ := bind_eq_ok.1 h
        cases h
        refine ⟨?_, .present hmark hsign hdigits (rejectIf_eq_ok.1 hsome)⟩
        rw [htext, hbehind, List.cons_append, List.append_assoc]
      · cases h
        exact ⟨rfl, .absent⟩

theorem scanExponent_complete {exponent rest : List Char} (hexponent : Exponent exponent)
    (hrest : Boundary rest) : scanExponent (exponent ++ rest) = .ok (exponent, rest) := by
  cases hexponent with
  | absent =>
      cases rest with
      | nil => rfl
      | cons c rest =>
          rw [List.nil_append, scanExponent, if_neg fun hmark => ?_]
          · rfl
          · have hcontinue := (hrest c rfl).1
            rw [isIdentifierContinue_of_mark hmark] at hcontinue
            cases hcontinue
  | @present mark sign digits hmark hsign hdigits hsome =>
      have hbehind : scanDigits (digits ++ rest) = (digits, rest) :=
        scanDigits_append hdigits fun c hc => isDigit_eq_false (hrest c hc).1
      have hsigned : scanSign (sign ++ (digits ++ rest)) = (sign, digits ++ rest) := by
        apply scanSign_append hsign
        obtain ⟨digit, others, rfl⟩ := List.exists_cons_of_ne_nil hsome
        rintro _ ⟨⟩
        have hdigit := hdigits digit List.mem_cons_self
        constructor <;> rintro rfl <;> exact absurd hdigit (by decide)
      rw [List.cons_append, List.append_assoc, scanExponent, if_pos hmark]
      simp only [hsigned, hbehind, rejectIf, hsome, if_false]
      rfl

theorem scanFraction_spec (text : List Char) :
    text = (scanFraction text).1 ++ (scanFraction text).2 ∧
      ((scanFraction text).1 = [] ∨
        ∃ digits, (scanFraction text).1 = '.' :: digits ∧ Digits digits) := by
  unfold scanFraction
  split
  · rename_i text
    obtain ⟨hbehind, hdigits⟩ := scanDigits_spec text
    exact ⟨congrArg (List.cons '.') hbehind, .inr ⟨_, rfl, hdigits⟩⟩
  · exact ⟨rfl, .inl rfl⟩

theorem scanNumber_sound {text literal rest : List Char}
    (h : scanNumber text = .ok (literal, rest)) : text = literal ++ rest ∧ Number literal := by
  rw [scanNumber] at h
  obtain ⟨htext, hwhole⟩ := scanDigits_spec text
  generalize scanDigits text = scanned at h htext hwhole
  obtain ⟨whole, behind⟩ := scanned
  dsimp only at h htext hwhole
  obtain ⟨hbehind, hfraction⟩ := scanFraction_spec behind
  generalize scanFraction behind = scanned at h hbehind hfraction
  obtain ⟨fraction, behind'⟩ := scanned
  dsimp only at h hbehind hfraction
  obtain ⟨⟨⟩, hsome, h⟩ := bind_eq_ok.1 h
  obtain ⟨⟨exponent, behind''⟩, hscan, h⟩ := bind_eq_ok.1 h
  obtain ⟨hbehind', hexponent⟩ := scanExponent_sound hscan
  cases h
  refine ⟨?_, .intro ?_ hexponent⟩
  · rw [htext, hbehind, hbehind', List.append_assoc, List.append_assoc]
  · have hsome := rejectIf_eq_ok.1 hsome
    rcases hfraction with hnone | ⟨digits, hpoint, hdigits⟩
    · cases hnone
      rw [List.append_nil]
      exact .integer hwhole fun hempty => hsome ⟨hempty, rfl⟩
    · cases hpoint
      refine .decimal hwhole hdigits ?_
      rw [← not_and_or]
      exact hsome

/-- What follows the mantissa does not continue it. -/
theorem Exponent.behind {exponent rest : List Char} (hexponent : Exponent exponent)
    (hrest : Boundary rest) : ∀ c ∈ (exponent ++ rest).head?, c.isDigit = false ∧ c ≠ '.' := by
  cases hexponent with
  | absent => exact fun c hc => ⟨isDigit_eq_false (hrest c hc).1, (hrest c hc).2⟩
  | present hmark =>
      rintro _ ⟨⟩
      simp only [isExponentMark, Bool.or_eq_true, beq_iff_eq] at hmark
      rcases hmark with rfl | rfl <;> decide

theorem scanNumber_complete {literal rest : List Char} (h : Number literal)
    (hrest : Boundary rest) : scanNumber (literal ++ rest) = .ok (literal, rest) := by
  obtain ⟨hmantissa, hexponent⟩ := h
  rename_i mantissa exponent
  have hbehind := hexponent.behind hrest
  have hexponent := scanExponent_complete hexponent hrest
  cases hmantissa with
  | integer hwhole hsome =>
      have hscan : scanDigits (mantissa ++ (exponent ++ rest)) = (mantissa, exponent ++ rest) :=
        scanDigits_append hwhole fun c hc => (hbehind c hc).1
      have hfraction : scanFraction (exponent ++ rest) = ([], exponent ++ rest) := by
        unfold scanFraction
        split
        · rename_i heq
          exact absurd rfl (hbehind '.' (by rw [heq]; rfl)).2
        · rfl
      rw [List.append_assoc, scanNumber]
      simp only [hscan, hfraction, hexponent, rejectIf, hsome, false_and, if_false, List.append_nil]
      rfl
  | @decimal whole fraction hwhole hfraction hsome =>
      have hscan : scanDigits (whole ++ '.' :: (fraction ++ (exponent ++ rest))) =
          (whole, '.' :: (fraction ++ (exponent ++ rest))) :=
        scanDigits_append hwhole (by rintro _ ⟨⟩; rfl)
      have hfraction : scanFraction ('.' :: (fraction ++ (exponent ++ rest))) =
          ('.' :: fraction, exponent ++ rest) := by
        rw [scanFraction, scanDigits_append hfraction fun c hc => (hbehind c hc).1]
      have hdigit : ¬ (whole = [] ∧ fraction = []) := not_and_or.2 hsome
      rw [List.append_assoc, List.append_assoc, List.cons_append, scanNumber]
      simp only [hscan, hfraction, hexponent, rejectIf, List.tail_cons, hdigit, if_false]
      rfl

/-! ## Variables -/

theorem newVariableName_eq_ok {text : List Char} {name : ExpressionVariableName} :
    newVariableName (String.ofList text) = .ok name ↔
      IsIdentifier text ∧ name = ⟨String.ofList text⟩ := by
  rw [newVariableName, String.toList_ofList]
  cases text with
  | nil =>
      refine ⟨nofun, fun h => ?_⟩
      obtain ⟨first, others, htext, -⟩ := h.1.start
      cases htext
  | cons first others =>
      constructor
      · intro h
        obtain ⟨⟨⟩, hbounded, h⟩ := bind_eq_ok.1 h
        obtain ⟨⟨⟩, hvalid, h⟩ := bind_eq_ok.1 h
        have hvalid := rejectIf_eq_ok.1 hvalid
        cases h
        simp only [not_or, Bool.not_eq_false, Bool.not_eq_true, List.any_eq_false,
          Bool.not_eq_true'] at hvalid
        refine ⟨⟨⟨first, others, rfl, hvalid.1, fun c hc => ?_⟩, not_lt.1 (rejectIf_eq_ok.1 hbounded)⟩,
          rfl⟩
        simpa using hvalid.2 c hc
      · rintro ⟨⟨⟨_, _, ⟨⟩, hstart, hothers⟩, hbounded⟩, rfl⟩
        refine bind_eq_ok.2 ⟨⟨⟩, rejectIf_eq_ok.2 (not_lt.2 hbounded), ?_⟩
        refine bind_eq_ok.2 ⟨⟨⟩, rejectIf_eq_ok.2 ?_, rfl⟩
        simp only [not_or, Bool.not_eq_false, Bool.not_eq_true, List.any_eq_false]
        exact ⟨hstart, fun c hc => by simp [hothers c hc]⟩

end Graph
end Superi

import Superi.Core.Text
import Superi.Graph.Expr

/-!
# ExprParser — compiling expression source

A recursive descent over the source emits the postfix program while it reads.  Nesting and the
number of instructions are bounded on the way.  A parser is represented by the source that is left,
so one call of the descent works on a shorter text than its caller; `fuel` bounds the number of
calls.
-/

namespace Superi
namespace Graph

open Core Result

def maxSourceBytes : Nat := 4096
def maxInstructions : Nat := 512
def maxDepth : Nat := 64
def maxVariableBytes : Nat := 64

def isIdentifierStart (c : Char) : Bool :=
  c.isAlpha || c == '_'

def isIdentifierContinue (c : Char) : Bool :=
  c.isAlphanum || c == '_'

/-- A bounded ASCII identifier. -/
def newVariableName (value : String) : Except Error ExpressionVariableName := do
  match value.toList with
  | [] => .error (expressionError "variable_name" "expression variable name cannot be empty")
  | first :: others =>
      rejectIf (maxVariableBytes < value.utf8ByteSize) (expressionError "variable_name"
        "expression variable name exceeds the supported length")
      rejectIf (isIdentifierStart first = false ∨ others.any (fun c => !isIdentifierContinue c) = true)
        (expressionError "variable_name" "expression variable name must be an ASCII identifier")
      pure ⟨value⟩

/-- A compile error that names the place in the source. -/
def syntaxError (message : String) : Error :=
  (expressionError "compile" message).withContext ⟨"superi-graph.expression", "compile"⟩

/-! ## Scanning -/

/-- The digits in front, and what is behind them. -/
def scanDigits (text : List Char) : List Char × List Char :=
  text.span Char.isDigit

/-- The point and the digits behind it, if there is one. -/
def scanFraction : List Char → List Char × List Char
  | '.' :: text => ('.' :: (scanDigits text).1, (scanDigits text).2)
  | text => ([], text)

/-- The sign of an exponent, if there is one. -/
def scanSign : List Char → List Char × List Char
  | '+' :: text => (['+'], text)
  | '-' :: text => (['-'], text)
  | text => ([], text)

def isExponentMark (c : Char) : Bool :=
  c == 'e' || c == 'E'

/-- The exponent, if there is one; it needs a digit. -/
def scanExponent : List Char → Except Error (List Char × List Char)
  | [] => pure ([], [])
  | mark :: text =>
      if isExponentMark mark = true then do
        let (sign, text) := scanSign text
        let (digits, text) := scanDigits text
        rejectIf (digits = [])
          (syntaxError "parameter expression contains an invalid number exponent")
        pure (mark :: (sign ++ digits), text)
      else
        pure ([], mark :: text)

/-- The longest number in front, and what is behind it. -/
def scanNumber (text : List Char) : Except Error (List Char × List Char) := do
  let (whole, text) := scanDigits text
  let (fraction, text) := scanFraction text
  rejectIf (whole = [] ∧ fraction.tail = [])
    (syntaxError "parameter expression contains an invalid number")
  let (exponent, text) ← scanExponent text
  pure (whole ++ fraction ++ exponent, text)

/-! ## Descent -/

/-- What the parser has still to read, and what it has emitted. -/
structure Parser where
  rest : List Char
  instructions : List ExpressionInstruction
  referenced : Std.ExtTreeSet ExpressionVariableName

namespace Parser

def new (source : String) : Parser :=
  ⟨source.toList, [], ∅⟩

def skipWhitespace (parser : Parser) : Parser :=
  { parser with rest := parser.rest.dropWhile isAsciiWhitespace }

def push (parser : Parser) (instruction : ExpressionInstruction) : Except Error Parser := do
  rejectIf (maxInstructions ≤ parser.instructions.length)
    (syntaxError "parameter expression exceeds the supported instruction count")
  pure { parser with instructions := parser.instructions ++ [instruction] }

def checkDepth (depth : Nat) : Except Error Unit :=
  rejectIf (maxDepth ≤ depth)
    (syntaxError "parameter expression exceeds the supported nesting depth")

/-- A literal of the scanned shape is one that the scalars read. -/
def parseNumber (F : Type) [Scalar F] (parser : Parser) : Except Error Parser := do
  let (literal, rest) ← scanNumber parser.rest
  rejectIf (Scalar.isFinite (Scalar.literal (String.ofList literal) : F) = false)
    (syntaxError "parameter expression constant must be finite")
  push { parser with rest } (.constant (String.ofList literal))

/-- The head is an identifier start already. -/
def parseVariable (allowed : Std.ExtTreeSet ExpressionVariableName) (parser : Parser) :
    Except Error Parser := do
  let spelling := parser.rest.head?.toList ++ parser.rest.tail.takeWhile isIdentifierContinue
  let name ← newVariableName (String.ofList spelling)
  rejectIf (name ∉ allowed)
    (syntaxError "parameter expression variable has no explicit binding")
  push { parser with
    rest := parser.rest.tail.dropWhile isIdentifierContinue
    referenced := parser.referenced.insert name } (.variable name)

section

variable (F : Type) [Scalar F] (allowed : Std.ExtTreeSet ExpressionVariableName)

mutual

def parseExpression : Nat → Nat → Parser → ExceptT Error Option Parser
  | 0, _, _ => ExceptT.mk none
  | fuel + 1, depth, parser => do
      let parser ← parseTerm fuel depth parser
      expressionLoop fuel depth parser

/-- The loop over the operators of one sum. -/
def expressionLoop : Nat → Nat → Parser → ExceptT Error Option Parser
  | 0, _, _ => ExceptT.mk none
  | fuel + 1, depth, parser =>
      let parser := parser.skipWhitespace
      match parser.rest with
      | '+' :: rest => do
          let parser ← parseTerm fuel depth { parser with rest }
          let parser ← parser.push .add
          expressionLoop fuel depth parser
      | '-' :: rest => do
          let parser ← parseTerm fuel depth { parser with rest }
          let parser ← parser.push .subtract
          expressionLoop fuel depth parser
      | _ => pure parser

def parseTerm : Nat → Nat → Parser → ExceptT Error Option Parser
  | 0, _, _ => ExceptT.mk none
  | fuel + 1, depth, parser => do
      let parser ← parseUnary fuel depth parser
      termLoop fuel depth parser

/-- The loop over the operators of one product. -/
def termLoop : Nat → Nat → Parser → ExceptT Error Option Parser
  | 0, _, _ => ExceptT.mk none
  | fuel + 1, depth, parser =>
      let parser := parser.skipWhitespace
      match parser.rest with
      | '*' :: rest => do
          let parser ← parseUnary fuel depth { parser with rest }
          let parser ← parser.push .multiply
          termLoop fuel depth parser
      | '/' :: rest => do
          let parser ← parseUnary fuel depth { parser with rest }
          let parser ← parser.push .divide
          termLoop fuel depth parser
      | _ => pure parser

def parseUnary : Nat → Nat → Parser → ExceptT Error Option Parser
  | 0, _, _ => ExceptT.mk none
  | fuel + 1, depth, parser =>
      let parser := parser.skipWhitespace
      match parser.rest with
      | '-' :: rest => do
          checkDepth depth
          let parser ← parseUnary fuel (depth + 1) { parser with rest }
          parser.push .negate
      | _ => parsePrimary fuel depth parser

def parsePrimary : Nat → Nat → Parser → ExceptT Error Option Parser
  | 0, _, _ => ExceptT.mk none
  | fuel + 1, depth, parser =>
      let parser := parser.skipWhitespace
      match parser.rest with
      | '(' :: rest => do
          checkDepth depth
          let parser ← parseExpression fuel (depth + 1) { parser with rest }
          let parser := parser.skipWhitespace
          match parser.rest with
          | ')' :: rest => pure { parser with rest }
          | _ => throw (syntaxError "parameter expression is missing a closing parenthesis")
      | first :: _ =>
          if (first.isDigit || first == '.') = true then
            parser.parseNumber F
          else if isIdentifierStart first = true then
            parser.parseVariable allowed
          else
            throw (syntaxError "parameter expression expected a value")
      | [] => throw (syntaxError "parameter expression ended before a value")

end

end

end Parser

/-! ## Compilation -/

def validateExpressionSource (source : String) : Except Error Unit := do
  rejectIf (source.isEmpty = true)
    (expressionError "compile" "parameter expression cannot be empty")
  rejectIf (maxSourceBytes < source.utf8ByteSize)
    (expressionError "compile" "parameter expression exceeds the supported source length")

/-- The allowed variables as a set; each is given once. -/
def allowVariables (names : List ExpressionVariableName) :
    Except Error (Std.ExtTreeSet ExpressionVariableName) :=
  names.foldlM (fun allowed name => do
    rejectIf (name ∈ allowed)
      (syntaxError "parameter expression variable is allowed more than once")
    pure (allowed.insert name)) ∅

/-- Enough calls for a source of this length. -/
def compileFuel (source : String) : Nat :=
  4 * source.toList.length + 4

/-- Compile bounded pure arithmetic over a declared set of allowed variables. -/
def ScalarExpression.compile (F : Type) [Scalar F] (source : String)
    (allowedVariables : List ExpressionVariableName) : ExceptT Error Option ScalarExpression := do
  let source := trim source
  validateExpressionSource source
  let allowed ← allowVariables allowedVariables
  let parser ← Parser.parseExpression F allowed (compileFuel source) 0 (Parser.new source)
  let parser := parser.skipWhitespace
  rejectIf (parser.rest ≠ [])
    (syntaxError "parameter expression contains an unexpected token")
  pure { source, variables' := parser.referenced, instructions := parser.instructions }

end Graph
end Superi

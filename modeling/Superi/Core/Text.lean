import Mathlib
import Superi.Lib.Result

/-!
# Text — characters and names the program tells apart

`str::trim` works with the Unicode `White_Space` property; scanners over bytes work with ASCII
classes only.  A shared identifier is a text of at least two segments between dots.  Each segment
starts with a lowercase letter and goes on with lowercase letters, digits, `_` and `-`.
-/

namespace Superi
namespace Core

/-- The Unicode `White_Space` property. -/
def isWhiteSpace (c : Char) : Bool :=
  let code := c.toNat
  (decide (0x09 ≤ code) && decide (code ≤ 0x0D)) || code == 0x20 || code == 0x85 ||
    code == 0xA0 || code == 0x1680 || (decide (0x2000 ≤ code) && decide (code ≤ 0x200A)) ||
    code == 0x2028 || code == 0x2029 || code == 0x202F || code == 0x205F || code == 0x3000

/-- The text without the whitespace around it. -/
def trim (text : String) : String :=
  String.ofList ((text.toList.dropWhile isWhiteSpace).rdropWhile isWhiteSpace)

/-- `u8::is_ascii_whitespace`, which leaves the vertical tab out. -/
def isAsciiWhitespace (c : Char) : Bool :=
  c == ' ' || c == '\t' || c == '\n' || c == '\x0c' || c == '\r'

open Result

/-- A failure while parsing a canonical namespaced shared identifier. -/
inductive ParseSharedNameError
  | empty
  | missingNamespace
  | emptySegment (index : Nat)
  | invalidSegmentStart (index : Nat)
  | invalidCharacter (index : Nat)
  deriving DecidableEq, Repr

/-- The loop over the bytes: where the last segment starts and how many ended before it. -/
def scanSegments : (input : List Char) → (index segmentStart segmentCount : Nat) →
    Except ParseSharedNameError (Nat × Nat)
  | [], _, segmentStart, segmentCount => .ok (segmentStart, segmentCount)
  | c :: rest, index, segmentStart, segmentCount =>
      if c = '.' then
        if index = segmentStart then .error (.emptySegment index)
        else scanSegments rest (index + 1) (index + 1) (segmentCount + 1)
      else if index = segmentStart then
        if c.isLower then scanSegments rest (index + 1) segmentStart segmentCount
        else .error (.invalidSegmentStart index)
      else if c.isLower || c.isDigit || c = '_' || c = '-' then
        scanSegments rest (index + 1) segmentStart segmentCount
      else .error (.invalidCharacter index)

def checkCanonicalName (input : List Char) : Except ParseSharedNameError Unit := do
  rejectIf (input = []) .empty
  let (segmentStart, segmentCount) ← scanSegments input 0 0 0
  rejectIf (segmentStart = input.length) (.emptySegment input.length)
  rejectIf (segmentCount + 1 < 2) .missingNamespace

/-- A text that the parser accepted. -/
structure CanonicalName where
  text : List Char
  canonical : checkCanonicalName text = .ok ()

def CanonicalName.parse (input : List Char) : Except ParseSharedNameError CanonicalName :=
  match h : checkCanonicalName input with
  | .ok () => .ok ⟨input, h⟩
  | .error error => .error error

/-- A stable namespaced identifier for a versioned component or protocol. -/
abbrev ComponentId := CanonicalName

end Core
end Superi

import Superi.Core.Ids
import Superi.Core.Timecode
import Superi.Graph.VersionText

/-!
# IdText — the text of a typed identifier

An identifier is written as the code of its domain and 32 lowercase hexadecimal digits.  The text
and the identifier determine each other.
-/

namespace Superi
namespace Serialization

open Core Result

/-! ## Hexadecimal digits -/

def hexDigit (n : Nat) : Char := if n < 10 then Char.ofNat (48 + n) else Char.ofNat (87 + n)

/-- The value of a lowercase hexadecimal digit. -/
def nibble (c : Char) : Option Nat :=
  if 48 ≤ c.toNat ∧ c.toNat ≤ 57 then some (c.toNat - 48)
  else if 97 ≤ c.toNat ∧ c.toNat ≤ 102 then some (c.toNat - 97 + 10)
  else none

/-- The low `width` digits of a number, `{:0width$x}` where it has no more. -/
def hexText : Nat → Nat → List Char
  | 0, _ => []
  | width + 1, n => hexText width (n / 16) ++ [hexDigit (n % 16)]

/-- The loop over the payload: the number read so far, or where it stopped. -/
def readHex : Nat → Nat → List Char → Except Nat Nat
  | _, raw, [] => .ok raw
  | index, raw, c :: rest =>
      match nibble c with
      | none => .error index
      | some n => readHex (index + 1) (raw * 16 + n) rest

/-- The permanent lowercase code of a domain. -/
def kindCode : IdentifierKind → String
  | .project => "project"
  | .media => "media"
  | .bin => "bin"
  | .smartCollection => "smart_collection"
  | .track => "track"
  | .clip => "clip"
  | .timeline => "timeline"
  | .gap => "gap"
  | .transition => "transition"
  | .generator => "generator"
  | .caption => "caption"
  | .marker => "marker"
  | .node => "node"
  | .parameter => "parameter"
  | .job => "job"
  | .cache => "cache"
  | .device => "device"
  | .graph => "graph"
  | .port => "port"
  | .edge => "edge"
  | .resource => "resource"
  | .multicamAngle => "multicam-angle"

/-- Every identifier domain, in stable code order. -/
def allKinds : List IdentifierKind :=
  [.project, .media, .bin, .smartCollection, .track, .clip, .timeline, .gap, .transition,
    .generator, .caption, .marker, .node, .parameter, .job, .cache, .device, .graph, .port, .edge, .resource,
    .multicamAngle]

def kindFromCode (code : List Char) : Option IdentifierKind :=
  allKinds.find? fun kind => (kindCode kind).toList = code

inductive ParseIdentifierError
  | missingSeparator
  | unknownKind
  | unexpectedKind (expected actual : IdentifierKind)
  | invalidLength (expected actual : Nat)
  | invalidHex (index : Nat)
  deriving DecidableEq, Repr

/-- The payload of an identifier of one domain. -/
def parseIdentifier (input : List Char) (expected : IdentifierKind) :
    Except ParseIdentifierError (BitVec 128) := do
  let (code, payload) ← okOr (Graph.splitOnce ':' input) .missingSeparator
  let actual ← okOr (kindFromCode code) .unknownKind
  rejectIf (actual ≠ expected) (.unexpectedKind expected actual)
  rejectIf (byteLength payload ≠ 32) (.invalidLength 32 (byteLength payload))
  let raw ← (readHex 0 0 payload).mapError .invalidHex
  pure (BitVec.ofNat 128 raw)

variable {kind : IdentifierKind}

def displayIdentifier (id : Identifier kind) : List Char :=
  (kindCode kind).toList ++ ':' :: hexText 32 id.raw.toNat

def identifierFromStr (input : List Char) : Except ParseIdentifierError (Identifier kind) := do
  let raw ← parseIdentifier input kind
  pure ⟨raw⟩

end Serialization
end Superi

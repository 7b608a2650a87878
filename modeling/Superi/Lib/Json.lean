import Mathlib
import Superi.Lib.Result

/-!
# Json — documents and derived readers

A document keeps what a streaming reader meets: members in their order, also repeated ones, and
numbers by their kind of token.  Two documents are the same value when they differ in the order of
members only.

A reader that is derived for a record accepts the record spelled as an object or as an array of its
fields in the order of their declaration.  Both are read field by field; an object is refused for an
unknown, a repeated or a missing member.
-/

namespace Superi

/-- A document.  `integer` is a number without fraction and exponent other than `-0`, `real` any
other number. -/
inductive Json
  | null
  | bool (value : Bool)
  | integer (value : Int)
  | real (token : List Char)
  | text (value : List Char)
  | array (items : List Json)
  | object (members : List (String × Json))

namespace Json

open Result

/-! ## Values -/

mutual

/-- The same value: members may stand in another order. -/
inductive Same : Json → Json → Prop
  | null : Same .null .null
  | bool {value : Bool} : Same (.bool value) (.bool value)
  | integer {value : Int} : Same (.integer value) (.integer value)
  | real {token : List Char} : Same (.real token) (.real token)
  | text {value : List Char} : Same (.text value) (.text value)
  | array {items items' : List Json} : SameItems items items' → Same (.array items) (.array items')
  | object {members moved members' : List (String × Json)} :
      SameMembers members moved → moved.Perm members' → Same (.object members) (.object members')

inductive SameItems : List Json → List Json → Prop
  | nil : SameItems [] []
  | cons {item item' : Json} {rest rest' : List Json} :
      Same item item' → SameItems rest rest' → SameItems (item :: rest) (item' :: rest')

inductive SameMembers : List (String × Json) → List (String × Json) → Prop
  | nil : SameMembers [] []
  | cons {name : String} {value value' : Json} {rest rest' : List (String × Json)} :
      Same value value' → SameMembers rest rest' →
      SameMembers ((name, value) :: rest) ((name, value') :: rest')

end

/-- No array occurs in the document. -/
inductive ArrayFree : Json → Prop
  | null : ArrayFree .null
  | bool (value : Bool) : ArrayFree (.bool value)
  | integer (value : Int) : ArrayFree (.integer value)
  | real (token : List Char) : ArrayFree (.real token)
  | text (value : List Char) : ArrayFree (.text value)
  | object {members : List (String × Json)} :
      (∀ member ∈ members, ArrayFree member.2) → ArrayFree (.object members)

theorem arrayFree_object {members : List (String × Json)} :
    ArrayFree (.object members) ↔ ∀ member ∈ members, ArrayFree member.2 := by
  constructor
  · rintro ⟨⟩
    assumption
  · exact .object

theorem not_arrayFree_array {items : List Json} : ¬ ArrayFree (.array items) := nofun

mutual

/-- The same value has arrays at the same places. -/
theorem Same.arrayFree {json json' : Json} (h : Same json json') (hfree : ArrayFree json) :
    ArrayFree json' := by
  cases h with
  | null => exact hfree
  | bool => exact hfree
  | integer => exact hfree
  | real => exact hfree
  | text => exact hfree
  | array _ => exact absurd hfree not_arrayFree_array
  | object hmembers hperm =>
      have hmoved := hmembers.arrayFree (arrayFree_object.1 hfree)
      exact .object fun member hmem => hmoved member (hperm.mem_iff.2 hmem)

theorem SameMembers.arrayFree {members members' : List (String × Json)}
    (h : SameMembers members members') (hfree : ∀ member ∈ members, ArrayFree member.2) :
    ∀ member ∈ members', ArrayFree member.2 := by
  cases h with
  | nil => exact hfree
  | cons hvalue hrest =>
      obtain ⟨hfirst, hlater⟩ := List.forall_mem_cons.1 hfree
      exact List.forall_mem_cons.2 ⟨hvalue.arrayFree hfirst, hrest.arrayFree hlater⟩

end

/-! ## Readers -/

/-- Why a document is refused; `custom` carries a reason of the type that is read. -/
inductive Fault (ε : Type)
  | invalidType
  | invalidLength
  | unknownField (name : String)
  | duplicateField (name : String)
  | missingField (name : String)
  | unknownVariant (code : List Char)
  | custom (reason : ε)

variable {ε α β : Type}

/-- A field of a record: its name, and whether a value is accepted for it. -/
structure Field (ε : Type) where
  name : String
  check : Json → Except (Fault ε) Unit

/-- A field that is read by `read`. -/
def field (name : String) (read : Json → Except (Fault ε) α) : Field ε :=
  { name, check := fun json => do
      let _ ← read json
      pure () }

/-- One member after another; each is read where it is met. -/
def visitMap (fields : List (Field ε)) :
    List (String × Json) → List (String × Json) → Except (Fault ε) (List (String × Json))
  | seen, [] => .ok seen
  | seen, (name, value) :: rest => do
      let field ← okOr (fields.find? fun field => field.name = name) (.unknownField name)
      rejectIf (name ∈ seen.map Prod.fst) (.duplicateField name)
      field.check value
      visitMap fields (seen ++ [(name, value)]) rest

/-- One item for each field. -/
def visitSeq : List (Field ε) → List Json → Except (Fault ε) (List Json)
  | [], [] => .ok []
  | field :: fields, item :: items => do
      field.check item
      let rest ← visitSeq fields items
      pure (item :: rest)
  | _, _ => .error .invalidLength

/-- The value of a member. -/
def member (members : List (String × Json)) (name : String) : Option Json :=
  (members.find? fun member => member.1 = name).map Prod.snd

/-- The values of a record's fields, in the order of their declaration. -/
def readRecord (fields : List (Field ε)) : Json → Except (Fault ε) (List Json)
  | .object members => do
      let seen ← visitMap fields [] members
      fields.mapM fun field => okOr (member seen field.name) (.missingField field.name)
  | .array items => visitSeq fields items
  | _ => .error .invalidType

/-- A record of two fields. -/
def readPair (first : String) (readFirst : Json → Except (Fault ε) α) (second : String)
    (readSecond : Json → Except (Fault ε) β) (json : Json) : Except (Fault ε) (α × β) := do
  match ← readRecord [field first readFirst, field second readSecond] json with
  | [firstValue, secondValue] => do
      let a ← readFirst firstValue
      let b ← readSecond secondValue
      pure (a, b)
  | _ => .error .invalidLength

/-! ## What an accepted record looks like -/

variable {fields : List (Field ε)} {seen members result : List (String × Json)} {values : List Json}

/-- How a type is written and read. -/
structure Wire (ε α : Type) where
  serialize : α → Json
  deserialize : Json → Except (Fault ε) α

namespace Wire

/-- A wire without a second spelling: what is written is read back, and a document without arrays
that is read is what would be written. -/
structure Canonical (wire : Wire ε α) : Prop where
  roundTrip : ∀ value, wire.deserialize (wire.serialize value) = .ok value
  arrayFree : ∀ value, ArrayFree (wire.serialize value)
  canonical : ∀ {json value}, wire.deserialize json = .ok value → ArrayFree json →
    Same (wire.serialize value) json

/-- A text that a display writes and a parser reads. -/
def text (display : α → List Char) (parse : List Char → Except ε α) : Wire ε α where
  serialize value := .text (display value)
  deserialize
    | .text value => (parse value).mapError .custom
    | _ => .error .invalidType

/-- A value that has a code. -/
def code [DecidableEq α] (codes : List (α × String)) : Wire ε α where
  serialize value := .text ((codes.find? fun entry => entry.1 = value).elim "" Prod.snd).toList
  deserialize
    | .text value => okOr ((codes.find? fun entry => entry.2.toList = value).map Prod.fst)
        (.unknownVariant value)
    | _ => .error .invalidType

/-- A whole number in a machine type. -/
def number (toInt : α → Int) (ofInt : Int → Option α) : Wire ε α where
  serialize value := .integer (toInt value)
  deserialize
    | .integer value => okOr (ofInt value) .invalidType
    | _ => .error .invalidType

/-- A record of two fields, put together by a constructor that may refuse them. -/
def pair {γ : Type} (first : String) (firstWire : Wire ε α)
    (second : String) (secondWire : Wire ε β) (parts : γ → α × β) (build : α × β → Except (Fault ε) γ) : Wire ε γ where
  serialize value := .object
    [(first, firstWire.serialize (parts value).1), (second, secondWire.serialize (parts value).2)]
  deserialize json := do
    let values ← readPair first firstWire.deserialize second secondWire.deserialize json
    build values

/-- A record whose fields are all written the same way. -/
def uniform {γ : Type} (names : List String) (wire : Wire ε α) (parts : γ → List α)
    (build : List α → Except (Fault ε) γ) : Wire ε γ where
  serialize value := .object (names.zip ((parts value).map wire.serialize))
  deserialize json := do
    let values ← readRecord (names.map fun name => field name wire.deserialize) json
    let values ← values.mapM wire.deserialize
    build values

end Wire

end Json
end Superi

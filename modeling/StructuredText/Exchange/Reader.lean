import StructuredText.Json.Basic

/-!
# The conventions of the exchange format

Records are objects with named fields, or arrays of all the fields in order.
Fields that are not known are passed over, known ones are not repeated, and a
field may be missing if its value is optional.  Choices are objects whose single
key names the alternative; an alternative without content may also be a string.

A reader takes the number of arrays and objects that may still be entered.
-/

set_option autoImplicit false

namespace StructuredText

/-- The number of arrays and objects that may stand inside one another. -/
def Json.maxDepth : Nat := 127

/-- What a reader makes of a document part, given how deep it may go. -/
abbrev Reader (α : Type) := Nat → Json → Option α

/-- Types whose values are alternatives without content. -/
class Tagged (α : Type) where
  all : List α
  tag : α → String

namespace Json

/-- The members of a name: none, one, or too many. -/
def field? (members : List (String × Json)) (name : String) : Option (Option Json) :=
  match members.filter fun (key, _) => key == name with
  | [] => some none
  | [(_, value)] => some (some value)
  | _ => none

/-- The fields of a record, in the order of their names. -/
def fields? (names : List String) : Json → Option (List (Option Json))
  | .object members => names.mapM (field? members)
  | .array items => if items.length = names.length then some (items.map some) else none
  | _ => none

/-- The alternative that a choice takes and its content. -/
def variant? : Json → Option (String × Option Json)
  | .string tag => some (tag, none)
  | .object [(tag, content)] => some (tag, some content)
  | _ => none

/-- The alternative of a choice that has content. -/
def content? : Json → Option (String × Json)
  | .object [(tag, content)] => some (tag, content)
  | _ => none

/-- The alternative of a choice without content. -/
def unit? (json : Json) : Option String :=
  match json.variant? with
  | some (tag, none) => some tag
  | some (tag, some .null) => some tag
  | _ => none

/-- A choice with one alternative. -/
def choice (tag : String) (content : Json) : Json := .object [(tag, content)]

end Json

namespace Reader

variable {α : Type}

/-- Reads the fields of a record. -/
def record (names : List String) (read : Nat → List (Option Json) → Option α) : Reader α
  | 0, _ => none
  | depth + 1, json => (json.fields? names).bind (read depth)

/-- Reads the content of a choice. -/
def choice (read : Nat → String → Json → Option α) : Reader α
  | 0, _ => none
  | depth + 1, json => json.content?.bind fun (tag, content) => read depth tag content

/-- Reads an array. -/
def list (read : Reader α) : Reader (List α)
  | 0, _ => none
  | depth + 1, json => json.array?.bind fun items => items.mapM (read depth)

/-- A field that has to be there. -/
def required (read : Reader α) (depth : Nat) (field : Option Json) : Option α :=
  field.bind (read depth)

/-- A field that may be missing or null. -/
def optional (read : Reader α) (depth : Nat) (field : Option Json) : Option (Option α) :=
  match field with
  | none => some none
  | some .null => some none
  | some json => (read depth json).map some

/-- Reads the name of an alternative without content. -/
def unit : Reader String
  | 0, json => if json.content?.isNone then json.unit? else none
  | _ + 1, json => json.unit?

/-- Reads an alternative without content. -/
def tagged [Tagged α] : Reader α := fun depth json =>
  (unit depth json).bind fun tag => Tagged.all.find? fun value => Tagged.tag value == tag

def string : Reader String := fun _ json => json.string?

def bool : Reader Bool := fun _ json => json.bool?

/-- Reads a whole number of a range. -/
def int (low high : Int) : Reader Int := fun _ json =>
  json.int?.filter fun value => low ≤ value ∧ value ≤ high

end Reader

/-- Writes an alternative without content. -/
def Tagged.toJson {α : Type} [Tagged α] (value : α) : Json := .string (Tagged.tag value)

/-- Writes an optional value. -/
def Json.ofOption {α : Type} (write : α → Json) : Option α → Json
  | none => .null
  | some value => write value

end StructuredText

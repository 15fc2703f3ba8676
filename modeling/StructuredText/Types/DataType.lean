import StructuredText.Elementary

/-!
# Resolved data types

The names in declarations refer to types; a `DataType` is what such a name means
once all names are followed.  Numbers written without a type have a type of
their own, which goes with every type of their category.
-/

set_option autoImplicit false

namespace StructuredText

/-- The bounds of one dimension of an array. -/
structure Dimension where
  lower : Int
  upper : Int
deriving DecidableEq, Repr

/-- The number of elements of a dimension, as a number of 128 bits; at most zero if it is empty.
Where the bounds lie too far apart for such a number it wraps around. -/
def Dimension.length (dimension : Dimension) : Int :=
  (dimension.upper - dimension.lower + 1).bmod (Nat.pow 2 128)

def Dimension.isEmpty (dimension : Dimension) : Bool := dimension.length ≤ 0

inductive DataType where
  | elementary (type : Elementary)
  | intLiteral
  | realLiteral
  | synonym (name : Ident) (base : DataType)
  | subrange (name : Ident) (base : Elementary) (lower upper : Int)
  | enumeration (name : Ident) (values : List Ident)
  | array (name : Ident) (dimensions : List Dimension) (element : DataType)
  | record (name : Ident) (fields : List (Ident × DataType))
  | functionBlock (name : Ident)

namespace DataType

instance : Inhabited DataType := ⟨.intLiteral⟩

mutual

/-- The same type, names compared without regard to case. -/
def same : DataType → DataType → Bool
  | .elementary left, .elementary right => left == right
  | .intLiteral, .intLiteral => true
  | .realLiteral, .realLiteral => true
  | .synonym name base, .synonym name' base' => name == name' && base.same base'
  | .subrange name base lower upper, .subrange name' base' lower' upper' =>
      name == name' && base == base' && lower == lower' && upper == upper'
  | .enumeration name values, .enumeration name' values' => name == name' && values == values'
  | .array name dimensions element, .array name' dimensions' element' =>
      name == name' && dimensions == dimensions' && element.same element'
  | .record name fields, .record name' fields' => name == name' && sameFields fields fields'
  | .functionBlock name, .functionBlock name' => name == name'
  | _, _ => false

def sameFields : List (Ident × DataType) → List (Ident × DataType) → Bool
  | [], [] => true
  | (name, type) :: fields, (name', type') :: fields' =>
      name == name' && type.same type' && sameFields fields fields'
  | _, _ => false

end

/-- The name of the type in generated code.  A number without a type counts as
the widest type of its category. -/
def cName : DataType → String
  | .elementary type => type.cName
  | .intLiteral => "LINT"
  | .realLiteral => "LREAL"
  | .synonym name _ | .subrange name _ _ _ | .enumeration name _ | .array name _ _
  | .record name _ | .functionBlock name => name.upper

/-- The start of the names of arrays that are not declared. -/
def inlineMark : String := "__ARRAY_OF_"

/-- The name of an array that is not declared: it spells out the element type and
the lengths, so arrays of one shape have one name. -/
def inlineName (dimensions : List Dimension) (element : DataType) : String :=
  inlineMark ++ element.cName ++
    String.join (dimensions.map fun dimension => "_" ++ toString dimension.length)

/-- An array written out where it is used. -/
def inlineArray (dimensions : List Dimension) (element : DataType) : DataType :=
  .array { name := inlineName dimensions element } dimensions element

/-- The type behind all other names for it. -/
def resolved : DataType → DataType
  | .synonym _ base => base.resolved
  | type => type

/-- The elementary type that represents the values, if there is one. -/
def elementary? (type : DataType) : Option Elementary :=
  match type.resolved with
  | .elementary type => some type
  | .subrange _ base _ _ => some base
  | _ => none

/-- True for numbers without a type. -/
def isLiteral : DataType → Bool
  | .intLiteral | .realLiteral => true
  | _ => false

/-- True for whole numbers without a type. -/
def isIntLiteral : DataType → Bool
  | .intLiteral => true
  | _ => false

def isRealLiteral : DataType → Bool
  | .realLiteral => true
  | _ => false

def isBool (type : DataType) : Bool := type.elementary? == some .bool

def isBitString (type : DataType) : Bool := type.elementary?.any Elementary.isBitString

def isInteger (type : DataType) : Bool :=
  type.resolved.isIntLiteral || type.elementary?.any Elementary.isInteger

def isReal (type : DataType) : Bool :=
  type.resolved.isRealLiteral || type.elementary?.any Elementary.isReal

def isNumeric (type : DataType) : Bool := type.isInteger || type.isReal

def isTime (type : DataType) : Bool := type.elementary? == some .time

def isDate (type : DataType) : Bool := type.elementary?.any Elementary.isDate

def isString (type : DataType) : Bool := type.elementary?.any Elementary.isString

def isSubrange (type : DataType) : Bool :=
  match type.resolved with
  | .subrange .. => true
  | _ => false

def isFunctionBlock (type : DataType) : Bool :=
  match type.resolved with
  | .functionBlock _ => true
  | _ => false

/-- True for arrays, records and function blocks: a value inside is reached by a
path. -/
def isCompound (type : DataType) : Bool :=
  match type.resolved with
  | .array .. | .record .. | .functionBlock _ => true
  | _ => false

/-- The base of a subrange; any other type itself. -/
def widened : DataType → DataType
  | .subrange _ base _ _ => .elementary base
  | type => type

/-- True if a value of the type `source` may be stored in a variable of the type
`target`. -/
def accepts (target source : DataType) : Bool :=
  match source.resolved with
  | .intLiteral =>
      target.resolved.isInteger || target.resolved.isReal || target.resolved.isBitString
  | .realLiteral => target.resolved.isReal
  | source =>
      match target.resolved.elementary?, source.elementary? with
      | some left, some right => left == right
      | none, none => target.resolved.cName == source.cName
      | _, _ => false

/-- The type of an operation on two operands, if they go together. -/
def common? (left right : DataType) : Option DataType :=
  match left.resolved, right.resolved with
  | .intLiteral, .intLiteral => some .intLiteral
  | .intLiteral, .realLiteral => some .realLiteral
  | .realLiteral, .intLiteral => some .realLiteral
  | .realLiteral, .realLiteral => some .realLiteral
  | .intLiteral, other => if other.accepts .intLiteral then some other.widened else none
  | .realLiteral, other => if other.accepts .realLiteral then some other.widened else none
  | other, .intLiteral => if other.accepts .intLiteral then some other.widened else none
  | other, .realLiteral => if other.accepts .realLiteral then some other.widened else none
  | left, right =>
      match left.elementary?, right.elementary? with
      | some base, some base' => if base == base' then some left.widened else none
      | none, none => if left.cName == right.cName then some left else none
      | _, _ => none

/-- The dimensions of an array that is not behind another name. -/
def dimensions : DataType → List Dimension
  | .array _ dimensions _ => dimensions
  | _ => []

end DataType

end StructuredText

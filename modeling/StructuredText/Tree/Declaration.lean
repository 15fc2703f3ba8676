import StructuredText.Token.Address
import StructuredText.Tree.Constant

/-!
# Declarations of data types and variables
-/

set_option autoImplicit false

namespace StructuredText

/-- The bounds of a subrange type, an array dimension or a range of labels. -/
structure Range where
  start : SignedToken
  stop : SignedToken
deriving DecidableEq, Repr

/-- The dimensions and the element type of an array. -/
structure ArrayShape where
  ranges : List Range
  element : Ident
deriving BEq

/-- An array type, by name or written out. -/
inductive ArraySpec where
  | named (type : Ident)
  | inline (shape : ArrayShape)
deriving BEq

/-- A value of an enumeration, possibly qualified by the type. -/
structure EnumValue where
  type : Option Ident := none
  value : Ident
deriving BEq

/-- The type of a variable or field together with the value it starts with. -/
inductive Initializer where
  | simple (type : Ident) (value : Option Constant := none)
  | string (length : Option IntegerToken) (width : StringWidth) (value : Option CharString)
  | enumerated (type : Ident) (value : Option EnumValue)
  | functionBlock (type : Ident)
  | array (spec : ArraySpec)
deriving BEq

structure FieldDecl where
  name : Ident
  initializer : Initializer
deriving BEq

/-- A declaration of a data type. -/
inductive TypeDecl where
  | synonym (name base : Ident)
  | subrange (name : Ident) (base : Elementary) (range : Range)
  | enumeration (name : Ident) (values : List Ident)
  | array (name : Ident) (shape : ArrayShape)
  | record (name : Ident) (fields : List FieldDecl)
  | string (name : Ident) (length : IntegerToken) (width : StringWidth)
deriving BEq

/-- The name that the declaration introduces. -/
def TypeDecl.name : TypeDecl → Ident
  | synonym name _ | subrange name _ _ | enumeration name _ | array name _ | record name _
  | string name _ _ => name

/-- The section that a variable is declared in. -/
inductive VarKind where
  | var | temp | input | output | inOut | external | global
deriving DecidableEq, Repr

inductive Qualifier where
  | unspecified | constant | retain | nonRetain
deriving DecidableEq, Repr

/-- What a declaration introduces: a name, or a place of the hardware that may
have a name. -/
inductive VarName where
  | symbol (name : Ident)
  | located (name : Option Ident) (address : Address)
deriving BEq

/-- The name, if the declaration gives one. -/
def VarName.ident? : VarName → Option Ident
  | symbol name => some name
  | located name _ => name

/-- The place of the hardware, if the declaration gives one. -/
def VarName.address? : VarName → Option Address
  | symbol _ => none
  | located _ address => some address

structure VarDecl where
  name : VarName
  kind : VarKind := .var
  qualifier : Qualifier := .unspecified
  initializer : Initializer
deriving BEq

end StructuredText
